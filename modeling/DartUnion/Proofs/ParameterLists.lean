import DartUnion.Proofs.GeneratedText
import DartUnion.Proofs.HelperReading

/-!
# Parameter lists of generated code

The parameters of a case are stated four times: by the factory that redirects to its class, and
there by the constructor, the fields and the list of the fields. A redirection is only valid when
the factory and the constructor agree on the parameters, and both regroup them on their own. So each
of the four is read off its text, and what was read is compared.

A list is cut at the commas outside of brackets. A text may be read with its angle brackets counted,
as a type like `Map<String, int>` wants it, or without them, as a function with an arrow wants it.
The type of a parameter may be any text that can be cut out of a list, even one that starts like a
group or with `required`; so the reader of the factory is told the types by the fields of the class.

* `Held`: text that can be cut out of a list.
* `readClass?`, `readRedirect?`: the readers.
* `layout`: the parameters one by one, then those between square and those between curly brackets.

Results:
* `items?_commas`: a list is cut into its items.
* `readList?_parameterList`: **a parameter list is read as the layout of its parameters.**
* `readClass?_agrees`: **the factory and the class of a case agree on every parameter.**
-/

namespace DartUnion.Output

open DartUnion.Dart DartUnion.Source

/-! ## Cutting a list -/

/-- The parts of a text between the commas outside of brackets: the first one and the others. There
are none when a bracket is not closed by its partner. -/
def parts? (kinds : List Bracket) (due : List Char) :
    List Char → Option (List Char × List (List Char))
  | [] => if due = [] then some ([], []) else none
  | c :: s =>
    if c = ',' ∧ due = [] then (parts? kinds [] s).map fun r => ([], r.1 :: r.2)
    else (dueAfter? kinds due c).bind fun due => (parts? kinds due s).map fun r => (c :: r.1, r.2)

/-- The items of a list, with a space behind each comma. -/
def items? (kinds : List Bracket) (text : String) : Option (List String) := do
  let parts ← parts? kinds [] text.toList
  let others ← parts.2.mapM fun s => behind? " " (String.ofList s)
  return String.ofList parts.1 :: others

section

variable {kinds : List Bracket}

/-- Held text belongs to the part at hand. -/
theorem parts?_append {due due' s : List Char} (h : s.foldlM (heldDueAfter? kinds) due = some due')
    (t : List Char) :
    parts? kinds due (s ++ t) = (parts? kinds due' t).map fun r => (s ++ r.1, r.2) := by
  induction s generalizing due with
  | nil =>
    obtain rfl : due = due' := Option.some.inj h
    exact Option.map_id'.symm
  | cons c s ih =>
    rw [List.foldlM_cons] at h
    obtain ⟨due₁, h₁, h₂⟩ := Option.bind_eq_some_iff.1 h
    unfold heldDueAfter? at h₁
    split at h₁
    · cases h₁
    · next hc =>
      rw [List.cons_append, parts?, if_neg hc, h₁, Option.bind_some, ih h₂, Option.map_map]
      rfl

theorem parts?_commas {i : String} {items : List String} (hs : Held kinds " ".toList)
    (h : ∀ j ∈ i :: items, Held kinds j.toList) :
    parts? kinds [] (commas (i :: items)).toList =
      some (i.toList, items.map fun j => (" " ++ j).toList) := by
  have hi := h i List.mem_cons_self
  induction items generalizing i with
  | nil =>
    have hlast := parts?_append hi []
    rw [List.append_nil] at hlast
    rw [commas_singleton, hlast, parts?, if_pos rfl, Option.map_some, List.append_nil, List.map_nil]
  | cons j items ih =>
    have hrest : ∀ k ∈ j :: items, Held kinds k.toList :=
      fun k hk => h k (List.mem_cons_of_mem i hk)
    rw [commas_cons_cons, parts?_append hi, parts?, if_pos ⟨rfl, rfl⟩, parts?_append hs,
      ih hrest (hrest j List.mem_cons_self)]
    simp only [Option.map_some, List.append_nil, List.map_cons, String.toList_append]

/-- **A list is cut into its items.** -/
theorem items?_commas {items : List String} (hne : items ≠ []) (hs : Held kinds " ".toList)
    (h : ∀ i ∈ items, Held kinds i.toList) : items? kinds (commas items) = some items := by
  obtain ⟨i, items, rfl⟩ := List.exists_cons_of_ne_nil hne
  have hothers : (items.map fun j => (" " ++ j).toList).mapM
      (fun s => behind? " " (String.ofList s)) = some (items.map id) := by
    refine mapM_eq_some_map fun j _ => ?_
    rw [String.ofList_toList]
    exact behind?_append " " j
  rw [items?, parts?_commas hs h]
  simp only [Option.bind_eq_bind, Option.bind_some, hothers, Option.pure_def, String.ofList_toList,
    List.map_id]

end

/-! ## Readers -/

/-- The group that a part of a list is, and what stands between its brackets. -/
def groupPart? (part : String) : Option (Group × String) :=
  (((behind? "[" part).bind (before? "]")).map fun inside => (.optional, inside)).or
    (((behind? "\x7b" part).bind (before? "\x7d")).map fun inside => (.named, inside))

section

variable {α : Type} (kinds : List Bracket) (read : String → Option α)

/-- What the parameters of a part say: those of a group, or the one that stands alone. -/
def readPart? (part : String) : Option (Group × List α) :=
  match groupPart? part with
  | some (g, inside) => do
    let items ← items? kinds inside
    return (g, ← items.mapM read)
  | none => (read part).map fun x => (.positional, [x])

/-- What the parameters of a list say, part by part. -/
def readList? (text : String) : Option (List (Group × List α)) :=
  (items? kinds text).bind fun parts => parts.mapM (readPart? kinds read)

end

/-- Where an argument goes: its name, and whether it has to be given by name. -/
structure Slot where
  name : String
  required : Bool
  deriving Repr, DecidableEq

/-- A parameter of a constructor that initialises the field of its name. -/
structure Initialiser where
  slot : Slot
  defaultValue : Option String
  deriving Repr, DecidableEq

/-- A parameter of a constructor. -/
def readInitialiser? (text : String) : Option Initialiser := do
  let front := dropFront "required " text
  let field ← behind? "this." front.2
  let (name, rest) ← identifier.scan? field.toList
  if rest = [] then some ⟨⟨String.ofList name, front.1⟩, none⟩
  else (behind? " = " (String.ofList rest)).map fun d => ⟨⟨String.ofList name, front.1⟩, some d⟩

/-- A parameter with the type that the field of its name has, and nothing else. -/
def readTyped? (fields : List (String × String)) (text : String) : Option Slot := do
  let name ← nameBefore? "" text
  let field ← fields.find? (·.2 == name)
  if text = field.1 ++ " " ++ name then some ⟨name, false⟩
  else if text = "required " ++ (field.1 ++ " " ++ name) then some ⟨name, true⟩
  else none

/-- The type and the name of a field. -/
def readField? (l : Line) : Option (String × String) :=
  if l.depth = 1 then do
    let field ← (behind? "final " l.text).bind (before? ";")
    let name ← nameBefore? "" field
    let type ← before? (" " ++ name) field
    return (type, name)
  else none

/-- A class with fields: their types and names, what the constructor takes, and the list of the
fields. -/
structure ReadClass where
  fields : List (String × String)
  initialisers : List (Group × List Initialiser)
  props : List String
  deriving Repr, DecidableEq

/-- What the constructor of a class takes and the list of its fields, off the lines behind the
fields. -/
def readMembers? (kinds : List Bracket) (typeName : String) :
    List Line → Option (List (Group × List Initialiser) × List String)
  | [blank, constructing, separating, override, listing, last] =>
    if [blank, separating, override, last] = [.blank, .blank, ⟨1, "@override"⟩, closing] ∧
        constructing.depth = 1 ∧ listing.depth = 1 then do
      let list ← (behind? ("const " ++ typeName ++ "(") constructing.text).bind (before? ");")
      let names ← (behind? "List<Object?> get props => [" listing.text).bind (before? "];")
      return (← readList? kinds readInitialiser? list, ← items? [] names)
    else none
  | _ => none

/-- The class of a name that extends a union. -/
def readClass? (kinds : List Bracket) (union typeName : String) : List Line → Option ReadClass
  | [] => none
  | header :: ls =>
    if header = ⟨0, "final class " ++ typeName ++ " extends " ++ union ++ " \x7b"⟩ then do
      let fields ← (ls.takeWhile (· ≠ .blank)).mapM readField?
      let members ← readMembers? kinds typeName (ls.dropWhile (· ≠ .blank))
      return ⟨fields, members.1, members.2⟩
    else none

/-- What the factory of a label takes that redirects to a class with these fields. -/
def readRedirect? (kinds : List Bracket) (fields : List (String × String))
    (union label typeName text : String) : Option (List (Group × List Slot)) := do
  let list ← (behind? ("const factory " ++ union ++ "." ++ label ++ "(") text).bind
    (before? (") = " ++ typeName ++ ";"))
  readList? kinds (readTyped? fields) list

/-! ## What parameters say -/

/-- The slot of a parameter. -/
def Slot.of (p : Parameter) : Slot := ⟨p.name, p.kind = .requiredNamed⟩

/-- The initialiser of the field of a parameter. -/
def Initialiser.of (p : Parameter) : Initialiser := ⟨.of p, p.defaultValue⟩

/-- The field of a parameter. -/
def fieldOf (p : Parameter) : String × String := (p.typeExpression, p.name)

/-- Parameters that stand between brackets, and nothing when there are none. -/
def together {α : Type} (g : Group) (xs : List α) : List (Group × List α) :=
  if xs.isEmpty then [] else [(g, xs)]

/-- **What is said of parameters, laid out as a list wants them**: the plain ones one by one, then the
optional ones together, then the named ones, in each group in the order of the source. -/
def layout {α : Type} (said : Parameter → α) (ps : List Parameter) : List (Group × List α) :=
  (inGroup .positional ps).map (fun p => (.positional, [said p])) ++
    together .optional ((inGroup .optional ps).map said) ++
    together .named ((inGroup .named ps).map said)

theorem map_layout {α β : Type} (f : α → β) (said : Parameter → α) (ps : List Parameter) :
    (layout said ps).map (fun part => (part.1, part.2.map f)) = layout (f ∘ said) ps := by
  have htogether : ∀ (g : Group) (qs : List Parameter),
      (together g (qs.map said)).map (fun part => (part.1, part.2.map f)) =
        together g (qs.map (f ∘ said)) := by
    intro g qs
    cases qs with
    | nil => rfl
    | cons q qs => simp [together]
  simp only [layout, List.map_append, htogether, List.map_map]
  rfl

/-- The layout holds every parameter once. -/
theorem perm_layout {α : Type} (said : Parameter → α) (ps : List Parameter) :
    ((layout said ps).flatMap Prod.snd).Perm (ps.map said) := by
  have htogether : ∀ (g : Group) (qs : List Parameter),
      (together g (qs.map said)).flatMap Prod.snd = qs.map said := by
    intro g qs
    cases qs with
    | nil => rfl
    | cons q qs => exact List.append_nil _
  have hflat : (layout said ps).flatMap Prod.snd =
      (inGroup .positional ps ++ inGroup .optional ps ++ inGroup .named ps).map said := by
    have hpositional : ((inGroup .positional ps).map fun p => (Group.positional, [said p])).flatMap
        Prod.snd = (inGroup .positional ps).map said := by
      rw [List.flatMap_map]
      exact List.map_eq_flatMap.symm
    rw [layout, List.flatMap_append, List.flatMap_append, hpositional, htogether, htogether,
      List.map_append, List.map_append]
  rw [hflat]
  exact (perm_inGroup ps).map said

/-- The parts of a parameter list. -/
def listParts (shown : Parameter → String) (ps : List Parameter) : List String :=
  (inGroup .positional ps).map (stated shown) ++
    bracketed "[" "]" ((inGroup .optional ps).map (stated shown)) ++
    bracketed "\x7b" "\x7d" ((inGroup .named ps).map (stated shown))

theorem parameterList_eq (shown : Parameter → String) (ps : List Parameter) :
    parameterList shown ps = commas (listParts shown ps) := by
  unfold parameterList listParts
  rw [map_stated shown (by decide), map_stated shown (by decide)]

theorem listParts_ne_nil (shown : Parameter → String) {ps : List Parameter} (hne : ps ≠ []) :
    listParts shown ps ≠ [] := by
  have hempty : ∀ (opening closing : String) (qs : List Parameter),
      bracketed opening closing (qs.map (stated shown)) = [] → qs = [] := by
    intro opening closing qs h
    cases qs with
    | nil => rfl
    | cons q qs => cases h
  intro h
  obtain ⟨hfront, hnamed⟩ := List.append_eq_nil_iff.1 h
  obtain ⟨hpositional, hoptional⟩ := List.append_eq_nil_iff.1 hfront
  have hperm := perm_inGroup ps
  rw [List.map_eq_nil_iff.1 hpositional, hempty _ _ _ hoptional, hempty _ _ _ hnamed] at hperm
  exact hne hperm.nil_eq.symm

/-! ## Reading a list -/

/-- A part that does not stand between the brackets of a group. -/
theorem groupPart?_eq_none {part : String}
    (h : ∀ inside, part ≠ "[" ++ inside ++ "]" ∧ part ≠ "\x7b" ++ inside ++ "\x7d") :
    groupPart? part = none := by
  have hpair : ∀ opening closing : String, (∀ inside, part ≠ opening ++ inside ++ closing) →
      (behind? opening part).bind (before? closing) = none := by
    intro opening closing hne
    rw [Option.eq_none_iff_forall_ne_some]
    intro inside hi
    obtain ⟨rest, hr, hi⟩ := Option.bind_eq_some_iff.1 hi
    refine hne inside ?_
    rw [eq_append_of_behind? hr, eq_append_of_before? hi, String.append_assoc]
  rw [groupPart?, hpair "[" "]" fun i => (h i).1, hpair "\x7b" "\x7d" fun i => (h i).2]
  rfl

/-- Neither does a part that starts or ends with another character. -/
theorem groupPart?_of_head? {part : String} {c : Char} (hp : part.toList.head? = some c)
    (hc : c ≠ '[' ∧ c ≠ '\x7b') : groupPart? part = none := by
  refine groupPart?_eq_none fun inside => ⟨?_, ?_⟩
  · rintro rfl
    rw [String.append_assoc, String.toList_append] at hp
    exact hc.1 (Option.some.inj hp).symm
  · rintro rfl
    rw [String.append_assoc, String.toList_append] at hp
    exact hc.2 (Option.some.inj hp).symm

theorem groupPart?_of_getLast? {part : String} {c : Char} (hp : part.toList.getLast? = some c)
    (hc : c ≠ ']' ∧ c ≠ '\x7d') : groupPart? part = none := by
  refine groupPart?_eq_none fun inside => ⟨?_, ?_⟩
  · rintro rfl
    rw [String.toList_append] at hp
    exact hc.1 (Option.some.inj (List.getLast?_concat.symm.trans hp)).symm
  · rintro rfl
    rw [String.toList_append] at hp
    exact hc.2 (Option.some.inj (List.getLast?_concat.symm.trans hp)).symm

theorem groupPart?_optional (inside : String) :
    groupPart? ("[" ++ inside ++ "]") = some (.optional, inside) := by
  rw [groupPart?, behind?_before?]
  rfl

theorem groupPart?_named (inside : String) :
    groupPart? ("\x7b" ++ inside ++ "\x7d") = some (.named, inside) := by
  have hsquare : behind? "[" ("\x7b" ++ inside ++ "\x7d") = none := by
    refine behind?_eq_none_of_head? (c := '[') (d := '\x7b') rfl ?_ (by decide)
    rw [String.append_assoc, String.toList_append]
    rfl
  rw [groupPart?, hsquare, behind?_before?]
  rfl

section

variable {α : Type} {kinds : List Bracket} (hk : kinds ∈ Bracket.readings)
  {read : String → Option α} {shown : Parameter → String} {said : Parameter → α}

include hk

theorem held_space : Held kinds " ".toList := by
  revert kinds
  decide

/-- A group between its brackets can be cut out of a list. -/
theorem held_group (b : Bracket) (hb : b ∈ [⟨'[', ']'⟩, ⟨'{', '}'⟩]) {opening closing : String}
    (hbrackets : opening.toList = [b.opening] ∧ closing.toList = [b.closing]) {items : List String}
    (h : ∀ i ∈ items, Held kinds i.toList) : ∀ i ∈ bracketed opening closing items,
      Held kinds i.toList := by
  have hpair : ∀ kinds ∈ Bracket.readings, ∀ b ∈ [(⟨'[', ']'⟩ : Bracket), ⟨'{', '}'⟩],
      heldDueAfter? kinds [] b.opening = some [b.closing] ∧
        heldDueAfter? kinds [b.closing] b.closing = some [] := by
    decide
  have hcomma : ∀ kinds ∈ Bracket.readings, Nested kinds ", ".toList := by decide
  obtain ⟨ho, hc⟩ := hpair kinds hk b hb
  have hitems := (nested_additive kinds).commas (hcomma kinds hk) fun j hj => (h j hj).nested
  intro i hi
  rw [eq_of_mem_bracketed hi, String.toList_append, String.toList_append, hbrackets.1, hbrackets.2,
    List.append_assoc]
  exact held_bracketed ho hc hitems rfl

/-- The members of a group are read off the part that they are. -/
theorem mapM_bracketed {opening closing : String} {g : Group}
    (hg : ∀ inside, groupPart? (opening ++ inside ++ closing) = some (g, inside))
    {qs : List Parameter} (hheld : ∀ p ∈ qs, Held kinds (stated shown p).toList)
    (hread : ∀ p ∈ qs, read (stated shown p) = some (said p)) :
    (bracketed opening closing (qs.map (stated shown))).mapM (readPart? kinds read) =
      some (together g (qs.map said)) := by
  cases qs with
  | nil => rfl
  | cons q qs =>
    have hne : (q :: qs).map (stated shown) ≠ [] := List.cons_ne_nil _ _
    have hitems := items?_commas hne (held_space hk) (List.forall_mem_map.2 hheld)
    have hpart : readPart? kinds read
        (opening ++ commas ((q :: qs).map (stated shown)) ++ closing) =
          some (g, (q :: qs).map said) := by
      rw [readPart?, hg]
      simp only [hitems, mapM_eq_some_map hread, Option.bind_eq_bind, Option.bind_some,
        Option.pure_def]
    show [_].mapM (readPart? kinds read) = _
    rw [List.mapM_cons, hpart]
    rfl

/-- **A parameter list is read as the layout of its parameters.** -/
theorem readList?_parameterList {ps : List Parameter} (hne : ps ≠ [])
    (hheld : ∀ p ∈ ps, Held kinds (stated shown p).toList)
    (hsingle : ∀ p ∈ ps, groupPart? (stated shown p) = none)
    (hread : ∀ p ∈ ps, read (stated shown p) = some (said p)) :
    readList? kinds read (parameterList shown ps) = some (layout said ps) := by
  have hmem : ∀ {g p}, p ∈ inGroup g ps → p ∈ ps := fun hp => (List.mem_filter.1 hp).1
  have hheldIn : ∀ g, ∀ p ∈ inGroup g ps, Held kinds (stated shown p).toList :=
    fun _ p hp => hheld p (hmem hp)
  have hreadIn : ∀ g, ∀ p ∈ inGroup g ps, read (stated shown p) = some (said p) :=
    fun _ p hp => hread p (hmem hp)
  have hitems : items? kinds (commas (listParts shown ps)) = some (listParts shown ps) := by
    refine items?_commas (listParts_ne_nil shown hne) (held_space hk) fun i hi => ?_
    rcases List.mem_append.1 hi with hi | hi
    · rcases List.mem_append.1 hi with hi | hi
      · obtain ⟨p, hp, rfl⟩ := List.mem_map.1 hi
        exact hheldIn .positional p hp
      · exact held_group hk ⟨'[', ']'⟩ (by decide) (by decide)
          (List.forall_mem_map.2 (hheldIn .optional)) i hi
    · exact held_group hk ⟨'{', '}'⟩ (by decide) (by decide)
        (List.forall_mem_map.2 (hheldIn .named)) i hi
  have hpositional : ((inGroup .positional ps).map (stated shown)).mapM (readPart? kinds read) =
      some ((inGroup .positional ps).map fun p => (.positional, [said p])) := by
    refine mapM_eq_some_map fun p hp => ?_
    rw [readPart?, hsingle p (hmem hp), hread p (hmem hp)]
    rfl
  rw [readList?, parameterList_eq, hitems, Option.bind_some, listParts, List.mapM_append,
    List.mapM_append, hpositional, mapM_bracketed hk groupPart?_optional (hheldIn _) (hreadIn _),
    mapM_bracketed hk groupPart?_named (hheldIn _) (hreadIn _)]
  rfl

end

/-! ## Parameters -/

/-- A name can be cut out of a list. -/
theorem held_name {kinds : List Bracket}
    (hk : ∀ b ∈ kinds, identifier.next b.opening = false ∧ identifier.next b.closing = false)
    {name : String} (hn : identifier.accepts name.toList = true) : Held kinds name.toList :=
  held_of_bracketless (fun _ hc => ne_bracket_of_next hk (next_of_accepts hn hc)) fun hc =>
    ne_of_next (next_of_accepts hn hc) rfl rfl

section

variable {kinds : List Bracket} (hk : kinds ∈ Bracket.readings)

include hk

theorem marks_of_readings :
    ∀ b ∈ kinds, identifier.next b.opening = false ∧ identifier.next b.closing = false := by
  revert kinds
  decide

variable {p : Parameter}

theorem held_stated {shown : Parameter → String} (h : Held kinds (shown p).toList) :
    Held kinds (stated shown p).toList := by
  have hrequired : ∀ kinds ∈ Bracket.readings, Held kinds "required ".toList := by decide
  unfold stated
  split
  · rw [String.toList_append]
    exact held_append (hrequired kinds hk) h
  · exact h

variable (hn : identifier.accepts p.name.toList = true)

include hn

theorem held_typed (ht : Held kinds p.typeExpression.toList) : Held kinds (typed p).toList := by
  rw [typed, String.toList_append, String.toList_append]
  exact held_append (held_append ht (held_space hk)) (held_name (marks_of_readings hk) hn)

theorem held_initialising (hd : ∀ e ∈ p.defaultValue, Held kinds e.toList) :
    Held kinds (initialising p).toList := by
  have hwords : ∀ kinds ∈ Bracket.readings, Held kinds "this.".toList ∧ Held kinds " = ".toList := by
    decide
  obtain ⟨hthis, hequals⟩ := hwords kinds hk
  have hfield : Held kinds ("this." ++ p.name).toList := by
    rw [String.toList_append]
    exact held_append hthis (held_name (marks_of_readings hk) hn)
  unfold initialising
  split
  · next e he =>
    rw [String.toList_append, String.toList_append]
    exact held_append (held_append hfield hequals) (hd e he)
  · exact hfield

end

theorem stated_typed (p : Parameter) :
    stated typed p = stated Parameter.typeExpression p ++ " " ++ p.name := by
  unfold stated typed
  split
  · rw [String.append_assoc, String.append_assoc, String.append_assoc]
  · rfl

/-- The word in front of an initialiser opens no group. -/
theorem groupPart?_initialising (p : Parameter) : groupPart? (stated initialising p) = none := by
  have hthis : ∃ s, initialising p = "this." ++ s := by
    unfold initialising
    split
    · exact ⟨_, by rw [String.append_assoc, String.append_assoc]⟩
    · exact ⟨_, rfl⟩
  obtain ⟨s, hs⟩ := hthis
  unfold stated
  rw [hs]
  split
  · refine groupPart?_of_head? (c := 'r') ?_ (by decide)
    rw [String.toList_append]
    rfl
  · refine groupPart?_of_head? (c := 't') ?_ (by decide)
    rw [String.toList_append]
    rfl

section

variable {p : Parameter} (hn : identifier.accepts p.name.toList = true)

include hn

/-- The name at the end of a parameter closes no group. -/
theorem groupPart?_typed : groupPart? (stated typed p) = none := by
  have hne := ne_nil_of_accepts hn
  have hnext := next_of_accepts hn (List.getLast_mem hne)
  refine groupPart?_of_getLast? (c := p.name.toList.getLast hne) ?_
    ⟨ne_of_next hnext rfl, ne_of_next hnext rfl⟩
  rw [stated_typed, String.toList_append, getLast?_append_of_ne_nil _ hne,
    List.getLast?_eq_some_getLast hne]

/-- Whether a parameter is required is told by its length: its type may start like the word. -/
theorem readTyped?_stated {fields : List (String × String)}
    (hf : fields.find? (·.2 == p.name) = some (fieldOf p)) :
    readTyped? fields (stated typed p) = some (.of p) := by
  have hname : nameBefore? "" (stated typed p) = some p.name := by
    have := @nameBefore?_blank (stated Parameter.typeExpression p) p.name "" hn
    rwa [String.append_empty, ← stated_typed] at this
  have hlonger : "required " ++ typed p ≠ typed p := fun he => by
    have := congrArg String.length he
    rw [String.length_append] at this
    exact absurd this (by simp)
  simp only [readTyped?, hname, hf, Option.bind_eq_bind, Option.bind_some]
  have htyped : (fieldOf p).1 ++ " " ++ p.name = typed p := rfl
  rw [htyped, Slot.of]
  unfold stated
  by_cases hk : p.kind = .requiredNamed
  · rw [if_pos hk, if_neg hlonger, if_pos rfl, decide_eq_true hk]
  · rw [if_neg hk, if_pos rfl, decide_eq_false hk]

theorem readInitialiser?_stated :
    readInitialiser? (stated initialising p) = some (.of p) := by
  obtain ⟨rest, hshown, hrest⟩ : ∃ rest : String, initialising p = "this." ++ (p.name ++ rest) ∧
      (p.defaultValue = none ∧ rest = "" ∨ ∃ e, p.defaultValue = some e ∧ rest = " = " ++ e) := by
    unfold initialising
    split
    · next e he => exact ⟨" = " ++ e, by simp only [String.append_assoc], .inr ⟨e, he, rfl⟩⟩
    · next he => exact ⟨"", by rw [String.append_empty], .inl ⟨he, rfl⟩⟩
  have hfront : dropFront "required " (stated initialising p) =
      (decide (p.kind = .requiredNamed), initialising p) := by
    unfold stated
    split
    · next hk => rw [dropFront_append, decide_eq_true hk]
    · next hk =>
      rw [decide_eq_false hk]
      refine dropFront_eq_self (behind?_eq_none_of_head? (c := 'r') (d := 't') rfl ?_ (by decide))
      rw [hshown, String.toList_append]
      rfl
  have hscan : identifier.scan? (p.name ++ rest).toList = some (p.name.toList, rest.toList) := by
    rw [String.toList_append]
    refine scan?_name hn fun c hc => ?_
    rcases hrest with ⟨-, rfl⟩ | ⟨e, -, rfl⟩
    · cases hc
    · rw [String.toList_append] at hc
      obtain rfl : ' ' = c := Option.some.inj hc
      rfl
  simp only [readInitialiser?, hfront, Option.bind_eq_bind, hshown, behind?_append, Option.bind_some,
    hscan, String.ofList_toList, Initialiser.of, Slot.of]
  rcases hrest with ⟨hnone, rfl⟩ | ⟨e, hsome, rfl⟩
  · rw [hnone]
    rfl
  · have hne : (" = " ++ e).toList ≠ [] := by
      rw [String.toList_append]
      exact List.cons_ne_nil _ _
    rw [if_neg hne, behind?_append, Option.map_some, hsome]

theorem readField?_typed : readField? ⟨1, "final " ++ typed p ++ ";"⟩ = some (fieldOf p) := by
  have hname : nameBefore? "" (typed p) = some p.name := by
    have := @nameBefore?_blank p.typeExpression p.name "" hn
    rwa [String.append_empty] at this
  have htype : before? (" " ++ p.name) (typed p) = some p.typeExpression := by
    rw [typed, String.append_assoc, before?_append]
  simp only [readField?, if_true, behind?_before?, hname, htype, Option.bind_eq_bind,
    Option.bind_some, Option.pure_def]
  rfl

end

/-! ## Factory and class -/

/-- The field of a parameter is found by its name. -/
theorem find?_fieldOf {ps : List Parameter} (hd : (ps.map Parameter.name).Nodup) {p : Parameter}
    (hp : p ∈ ps) : (ps.map fieldOf).find? (·.2 == p.name) = some (fieldOf p) := by
  induction ps with
  | nil => cases hp
  | cons q qs ih =>
    obtain ⟨hq, hqs⟩ := List.nodup_cons.1 hd
    rw [List.map_cons, List.find?_cons]
    rcases List.mem_cons.1 hp with rfl | hp
    · simp [fieldOf]
    · have hne : (fieldOf q).2 ≠ p.name := fun he => hq (by
        rw [show q.name = p.name from he]
        exact List.mem_map_of_mem hp)
      rw [beq_false_of_ne hne]
      exact ih hqs hp

section

variable {v : Variant} (hne : v.parameters ≠ [])

include hne

/-- The class of a case with parameters: its fields, its constructor and the list of its fields. -/
theorem classLines_of_parameters (union : String) : classLines union v =
    ⟨0, "final class " ++ v.typeName ++ " extends " ++ union ++ " \x7b"⟩ ::
      (v.parameters.map (fun p => ⟨1, "final " ++ typed p ++ ";"⟩) ++
        [.blank,
          ⟨1, "const " ++ v.typeName ++ "(" ++ parameterList initialising v.parameters ++ ");"⟩,
          .blank, ⟨1, "@override"⟩,
          ⟨1, "List<Object?> get props => [" ++ commas (v.parameters.map Parameter.name) ++ "];"⟩,
          closing]) := by
  have hunit : v.isUnit = false := List.isEmpty_eq_false_iff.2 hne
  rw [classLines_eq, bodyLines, hunit, if_neg Bool.false_ne_true, List.append_assoc,
    List.append_assoc]
  rfl

variable (hn : ∀ p ∈ v.parameters, identifier.accepts p.name.toList = true)

include hn

/-- **The class of a case** is read as what its parameters say. -/
theorem readClass?_classLines {kinds : List Bracket} (hk : kinds ∈ Bracket.readings)
    (hd : ∀ p ∈ v.parameters, ∀ e ∈ p.defaultValue, Held kinds e.toList) (union : String) :
    readClass? kinds union v.typeName (classLines union v) =
      some ⟨v.parameters.map fieldOf, layout .of v.parameters, v.parameters.map Parameter.name⟩ := by
  have hconstructor : readList? kinds readInitialiser? (parameterList initialising v.parameters) =
      some (layout .of v.parameters) :=
    readList?_parameterList hk hne
      (fun p hp => held_stated hk (held_initialising hk (hn p hp) (hd p hp)))
      (fun p _ => groupPart?_initialising p) fun p hp => readInitialiser?_stated (hn p hp)
  have hprops : items? [] (commas (v.parameters.map Parameter.name)) =
      some (v.parameters.map Parameter.name) :=
    items?_commas (List.map_eq_nil_iff.not.2 hne) (by decide)
      (List.forall_mem_map.2 fun p hp => held_name (by decide) (hn p hp))
  have hfields : (v.parameters.map fun p => (⟨1, "final " ++ typed p ++ ";"⟩ : Line)).mapM
      readField? = some (v.parameters.map fieldOf) :=
    mapM_eq_some_map fun p hp => readField?_typed (hn p hp)
  have hblank : ∀ l ∈ v.parameters.map fun p => (⟨1, "final " ++ typed p ++ ";"⟩ : Line),
      decide (l ≠ .blank) = true := by
    refine List.forall_mem_map.2 fun p _ => decide_eq_true fun he => ?_
    exact Nat.one_ne_zero (congrArg Line.depth he)
  rw [classLines_of_parameters hne, readClass?, if_pos rfl, List.takeWhile_append_of_pos hblank,
    List.dropWhile_append_of_pos hblank, List.takeWhile_cons_of_neg (by simp),
    List.dropWhile_cons_of_neg (by simp), List.append_nil, hfields, readMembers?,
    if_pos ⟨rfl, rfl, rfl⟩]
  simp only [behind?_before?, hconstructor, hprops, Option.bind_eq_bind, Option.bind_some,
    Option.pure_def]

/-- **The factory of a case** is read as what its parameters say, without their defaults. -/
theorem readRedirect?_redirect {kinds : List Bracket} (hk : kinds ∈ Bracket.readings)
    (hdistinct : (v.parameters.map Parameter.name).Nodup)
    (ht : ∀ p ∈ v.parameters, Held kinds p.typeExpression.toList) (union : String) :
    readRedirect? kinds (v.parameters.map fieldOf) union v.label v.typeName (redirect union v) =
      some (layout .of v.parameters) := by
  have hlist : readList? kinds (readTyped? (v.parameters.map fieldOf))
      (parameterList typed v.parameters) = some (layout .of v.parameters) :=
    readList?_parameterList hk hne
      (fun p hp => held_stated hk (held_typed hk (hn p hp) (ht p hp)))
      (fun p hp => groupPart?_typed (hn p hp))
      fun p hp => readTyped?_stated (hn p hp) (find?_fieldOf hdistinct hp)
  have hassoc : ∀ front list type : String,
      front ++ list ++ ") = " ++ type ++ ";" = front ++ list ++ (") = " ++ type ++ ";") := by
    intro front list type
    simp only [String.append_assoc]
  have htext : redirect union v = "const factory " ++ union ++ "." ++ v.label ++ "(" ++
      parameterList typed v.parameters ++ (") = " ++ v.typeName ++ ";") := hassoc _ _ _
  have hinside : (behind? ("const factory " ++ union ++ "." ++ v.label ++ "(")
      (redirect union v)).bind (before? (") = " ++ v.typeName ++ ";")) =
        some (parameterList typed v.parameters) := by
    rw [htext]
    exact behind?_before? _ _ _
  rw [readRedirect?, hinside, Option.bind_eq_bind, Option.bind_some]
  exact hlist

end

/-- **The factory and the class of a case agree on every parameter.** The factory takes what the
constructor takes, in the same order and the same groups, with the same names required; the
constructor initialises each parameter once and with its default, which the factory does not state;
and the class has a field for each parameter and lists it. Types and defaults may be read by
different ways to count brackets. -/
theorem readClass?_agrees {v : Variant} (hne : v.parameters ≠ [])
    (hn : ∀ p ∈ v.parameters, identifier.accepts p.name.toList = true)
    (hdistinct : (v.parameters.map Parameter.name).Nodup) {types defaults : List Bracket}
    (ht : types ∈ Bracket.readings) (hd : defaults ∈ Bracket.readings)
    (htypes : ∀ p ∈ v.parameters, Held types p.typeExpression.toList)
    (hdefaults : ∀ p ∈ v.parameters, ∀ e ∈ p.defaultValue, Held defaults e.toList)
    (union : String) :
    ∃ c, readClass? defaults union v.typeName (classLines union v) = some c ∧
      readRedirect? types c.fields union v.label v.typeName (redirect union v) =
        some (c.initialisers.map fun part => (part.1, part.2.map Initialiser.slot)) ∧
      c.initialisers = layout
        (fun p => ⟨⟨p.name, p.kind = .requiredNamed⟩, p.defaultValue⟩) v.parameters ∧
      ((c.initialisers.flatMap Prod.snd).map fun i => i.slot.name).Perm
        (v.parameters.map Parameter.name) ∧
      c.fields = (v.parameters.map fun p => (p.typeExpression, p.name)) ∧
      c.props = v.parameters.map Parameter.name := by
  refine ⟨_, readClass?_classLines hne hn hd hdefaults union, ?_, rfl, ?_, rfl, rfl⟩
  · rw [readRedirect?_redirect hne hn ht hdistinct htypes union, map_layout]
    rfl
  · have hnames := (perm_layout Initialiser.of v.parameters).map fun i => i.slot.name
    rwa [List.map_map] at hnames

/-- Parameters of all kinds in no order, with commas between angle brackets and a default with an
arrow. -/
theorem readClass?_agrees_arrow : ∃ v : Variant,
    v = ⟨"_Page", "page", [⟨"pick", "int Function(int, int)", some "f((a, b) => a)", .named⟩,
      ⟨"at$", "Map<String, List<int>>", none, .positional⟩,
      ⟨"size", "int", some "[10, 20].first", .optionalPositional⟩,
      ⟨"by", "(int, \x7bint x\x7d)?", none, .requiredNamed⟩,
      ⟨"to", "[int]", none, .positional⟩]⟩ ∧
    ∃ c, readClass? Bracket.unambiguous "Query" "_Page" (classLines "Query" v) = some c ∧
      c.props = ["pick", "at$", "size", "by", "to"] ∧
      readRedirect? Bracket.all c.fields "Query" "page" "_Page" (redirect "Query" v) =
        some [(.positional, [⟨"at$", false⟩]), (.positional, [⟨"to", false⟩]),
          (.optional, [⟨"size", false⟩]), (.named, [⟨"pick", false⟩, ⟨"by", true⟩])] := by
  obtain ⟨c, hc, hr, hi, -, -, hp⟩ := readClass?_agrees
    (v := ⟨"_Page", "page", [⟨"pick", "int Function(int, int)", some "f((a, b) => a)", .named⟩,
      ⟨"at$", "Map<String, List<int>>", none, .positional⟩,
      ⟨"size", "int", some "[10, 20].first", .optionalPositional⟩,
      ⟨"by", "(int, \x7bint x\x7d)?", none, .requiredNamed⟩,
      ⟨"to", "[int]", none, .positional⟩]⟩)
    (by decide) (by decide) (by decide) (by decide : Bracket.all ∈ Bracket.readings)
    (by decide : Bracket.unambiguous ∈ Bracket.readings) (by decide) (by decide) "Query"
  rw [hi] at hr
  exact ⟨_, rfl, c, hc, hp, hr⟩

end DartUnion.Output
