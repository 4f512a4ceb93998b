import DartUnion.Proofs.CoveredCases
import DartUnion.Proofs.GeneratedText

/-!
# Brackets of generated code

A bracket of generated code may be closed many lines below the one that opens it: the brace of a
class, of a method and of its `switch`, and the pair `({` in front of the handlers of a helper. So
the scan over a text is described by what it does to the brackets due, and texts are put together
where one leaves due what the next one closes. Angle brackets are not counted, as an arrow holds one
that closes nothing.

* `Leaves`: what is due behind a text that was scanned with some brackets due.
* `Balanced`: a text that closes what it opens, and only that.
* `LinesLeave`: the same as `Leaves` for lines, however deep they are indented.

Results:
* `balanced_redirect`, `balanced_textArm`, `balanced_handler`, `balanced_helperArm`: the texts that
  are made of a case are balanced.
* `linesLeave_method`, `linesLeave_class`: a helper and a class close what they open.
* `nested_code`: **the code of a union has its brackets nested.**
-/

namespace DartUnion.Output

open DartUnion.Dart DartUnion.Source

/-! ## What a text leaves due -/

/-- The text leaves `due'` due where `due` was due, whatever is due below them. -/
def Leaves (due : List Char) (s : String) (due' : List Char) : Prop :=
  ∀ below, due? Bracket.unambiguous (due ++ below) s.toList = some (due' ++ below)

/-- The text closes what it opens, and only that. -/
def Balanced (s : String) : Prop := Nested Bracket.unambiguous s.toList

instance (s : String) : Decidable (Balanced s) := inferInstanceAs (Decidable (Nested _ _))

theorem Leaves.append {due₁ due₂ due₃ : List Char} {s t : String} (hs : Leaves due₁ s due₂)
    (ht : Leaves due₂ t due₃) : Leaves due₁ (s ++ t) due₃ := by
  intro below
  rw [String.toList_append, due?_append, hs below]
  exact ht below

theorem Balanced.leaves {s : String} (h : Balanced s) (due : List Char) : Leaves due s due :=
  fun below => h.due? (due ++ below)

theorem Leaves.balanced {s : String} (h : Leaves [] s []) : Balanced s := h []

theorem Balanced.append {s t : String} (hs : Balanced s) (ht : Balanced t) : Balanced (s ++ t) :=
  ((hs.leaves []).append (ht.leaves [])).balanced

/-- A balanced text between what opens brackets and what closes them again. -/
theorem balanced_between {due : List Char} {front inside back : String} (hf : Leaves [] front due)
    (hi : Balanced inside) (hb : Leaves due back []) : Balanced (front ++ inside ++ back) :=
  ((hf.append (hi.leaves due)).append hb).balanced

theorem balanced_commas {items : List String} (h : ∀ i ∈ items, Balanced i) :
    Balanced (commas items) :=
  (nested_additive Bracket.unambiguous).commas (by decide) h

theorem balanced_commas_map {α : Type} {f : α → String} {xs : List α}
    (h : ∀ x ∈ xs, Balanced (f x)) : Balanced (commas (xs.map f)) :=
  balanced_commas (List.forall_mem_map.2 h)

/-! ## Names -/

theorem balanced_name {s : String} (h : identifier.accepts s.toList = true) : Balanced s :=
  nested_of_bracketless fun _ hc => ne_bracket_of_next (by decide) (next_of_accepts h hc)

/-- Escaping adds no brackets. -/
theorem balanced_escape {s : String} (h : identifier.accepts s.toList = true) :
    Balanced (escape s) := by
  refine nested_of_bracketless fun c hc => ?_
  rw [toList_escape] at hc
  rcases mem_of_mem_escapeChars hc with rfl | hc
  · decide
  · exact ne_bracket_of_next (by decide) (next_of_accepts h hc)

/-! ## Parameter lists -/

/-- Names of the variant are identifiers, and its types and defaults are balanced. -/
abbrev BalancedTexts (v : Variant) : Prop := VariantTexts (Nested Bracket.unambiguous) v

theorem balanced_bracketed {opening closing : String} {due : List Char}
    (ho : Leaves [] opening due) (hc : Leaves due closing []) {items : List String}
    (h : ∀ i ∈ items, Balanced i) : ∀ i ∈ bracketed opening closing items, Balanced i := by
  intro i hi
  rw [eq_of_mem_bracketed hi]
  exact balanced_between ho (balanced_commas h) hc

/-- The brackets around a group belong together, so a list of balanced parameters is balanced. -/
theorem balanced_parameterList {shown : Parameter → String} {ps : List Parameter}
    (h : ∀ p ∈ ps, Balanced (shown p)) : Balanced (parameterList shown ps) := by
  have hgroup : ∀ g, ∀ p ∈ inGroup g ps, Balanced (shown p) :=
    fun _ p hp => h p (List.mem_filter.1 hp).1
  have hsquare : Leaves [] "[" [']'] := fun _ => rfl
  have hcurly : Leaves [] "\x7b" ['}'] := fun _ => rfl
  refine balanced_commas fun i hi => ?_
  rcases List.mem_append.1 hi with hi | hi
  · rcases List.mem_append.1 hi with hi | hi
    · exact List.forall_mem_map.2 (hgroup .positional) i hi
    · exact balanced_bracketed hsquare (fun _ => rfl) (List.forall_mem_map.2 (hgroup .optional)) i hi
  · refine balanced_bracketed hcurly (fun _ => rfl) (List.forall_mem_map.2 fun p hp => ?_) i hi
    unfold stated
    split
    · exact Balanced.append (by decide) (hgroup .named p hp)
    · exact hgroup .named p hp

section

variable {v : Variant} (hv : BalancedTexts v)

include hv

theorem balanced_typed {p : Parameter} (hp : p ∈ v.parameters) : Balanced (typed p) :=
  (Balanced.append (hv.types p hp) (by decide)).append (balanced_name (hv.names p hp))

theorem balanced_initialising {p : Parameter} (hp : p ∈ v.parameters) :
    Balanced (initialising p) := by
  have hfield : Balanced ("this." ++ p.name) :=
    Balanced.append (by decide) (balanced_name (hv.names p hp))
  unfold initialising
  split
  · next e he => exact (hfield.append (by decide)).append (hv.defaults p hp e he)
  · exact hfield

/-! ## Factories and arms -/

theorem balanced_redirect {union : String} (hu : identifier.accepts union.toList = true) :
    Balanced (redirect union v) := by
  have hname : Balanced ("const factory " ++ union ++ "." ++ v.label) :=
    ((Balanced.append (by decide) (balanced_name hu)).append (by decide)).append
      (balanced_name hv.label)
  have hopening : Leaves [] "(" [')'] := fun _ => rfl
  have hlist := balanced_between ((hname.leaves []).append hopening)
    (balanced_parameterList fun _ hp => balanced_typed hv hp) (fun _ => rfl : Leaves [')'] ") = " [])
  exact (hlist.append (balanced_name hv.typeName)).append (by decide)

theorem balanced_construction {union : String} (hu : identifier.accepts union.toList = true) :
    Balanced (construction union v) := by
  have hconst : Balanced (if v.isUnit then "const " else "") := by
    split <;> decide
  exact (((hconst.append (balanced_name hu)).append (by decide)).append
    (balanced_name hv.label)).append (by decide)

theorem balanced_bind {binding : String} (hb : identifier.accepts binding.toList = true) :
    Balanced (Pattern.bind v.typeName binding).text :=
  ((Balanced.append (by decide) (balanced_name hv.typeName)).append (by decide)).append
    (balanced_name hb)

theorem balanced_ofVariant {binding : String} (hb : identifier.accepts binding.toList = true) :
    Balanced (Pattern.ofVariant v binding).text := by
  unfold Pattern.ofVariant
  split
  · exact (balanced_name hv.typeName).append (by decide)
  · exact balanced_bind hv hb

omit hv in
theorem balanced_arm {a : Arm} (hp : Balanced a.pattern.text) (hb : Balanced a.body) :
    Balanced a.text :=
  ((hp.append (by decide)).append hb).append (by decide)

omit hv in
theorem balanced_field {binding : String} (hb : identifier.accepts binding.toList = true)
    {p : Parameter} (hn : identifier.accepts p.name.toList = true) : Balanced (field binding p) :=
  ((balanced_name hb).append (by decide)).append (balanced_name hn)

theorem balanced_textArm {binding : String} (hb : identifier.accepts binding.toList = true) :
    Balanced (textArm binding v).text := by
  have hname : Balanced ("'" ++ escape v.typeName) :=
    Balanced.append (by decide) (balanced_escape hv.typeName)
  have hopening : Leaves [] "(" [')'] := fun _ => rfl
  have hbrace : Leaves [] "$\x7b" ['}'] := fun _ => rfl
  have hfields : Balanced (commas (v.parameters.map fun p => interpolated (field binding p))) :=
    balanced_commas_map fun p hp =>
      balanced_between hbrace (balanced_field hb (hv.names p hp)) fun _ => rfl
  exact balanced_arm (balanced_ofVariant hv hb)
    (balanced_between ((hname.leaves []).append hopening) hfields fun _ => rfl)

end

/-! ## Helpers -/

theorem balanced_dispatch {x : Dispatch} (hl : identifier.accepts x.label.toList = true)
    (ha : ∀ i ∈ x.arguments, Balanced i) : Balanced x.text := by
  obtain ⟨label, arguments, absence, async⟩ := x
  have hlabel : Balanced label := balanced_name hl
  have hwait : Balanced (if async then "await " else "") := by
    split <;> decide
  have hopening : Leaves [] "(" [')'] := fun _ => rfl
  have harguments : Balanced ("(" ++ commas arguments ++ ")") :=
    balanced_between hopening (balanced_commas ha) fun _ => rfl
  cases absence with
  | impossible => exact (hwait.append hlabel).append harguments
  | orElse =>
    have hcall := ((((hlabel.append (by decide : Balanced " != null ? ")).append hwait).append
      hlabel).append harguments)
    exact ((hcall.append (by decide)).append hwait).append (by decide)
  | null => exact ((hwait.append hlabel).append (by decide)).append harguments

theorem balanced_answerType (async : Bool) : Balanced (answerType async) := by
  cases async <;> decide

/-- The names of the helpers and the types that they return. -/
theorem balanced_family (f : Family) : Balanced f.name ∧ Balanced f.returns := by
  obtain ⟨receives, absence, async⟩ := f
  cases receives <;> cases absence <;> cases async <;> decide

section

variable {v : Variant} (hv : BalancedTexts v) (f : Family) {binding : String}
  (hb : identifier.accepts binding.toList = true)

include hv hb

theorem balanced_handler : Balanced (f.handler binding v).text := by
  have htakes : ∀ t ∈ (f.handler binding v).type.takes, Balanced t := by
    unfold Family.handler
    cases f.receives with
    | fields => exact List.forall_mem_map.2 fun p hp => balanced_typed hv hp
    | case =>
      intro t ht
      rw [List.mem_singleton.1 ht]
      exact ((balanced_name hv.typeName).append (by decide)).append (balanced_name hb)
  have hfunction : Leaves [] " Function(" [')'] := fun _ => rfl
  have htype : Balanced (f.handler binding v).type.text :=
    balanced_between (((balanced_answerType _).leaves []).append hfunction)
      (balanced_commas htakes) fun _ => rfl
  have hrequired : Balanced (if (f.handler binding v).required
      then "required " ++ (f.handler binding v).type.text
      else (f.handler binding v).type.text ++ "?") := by
    split
    · exact Balanced.append (by decide) htype
    · exact htype.append (by decide)
  exact ((hrequired.append (by decide)).append (balanced_name hv.label)).append (by decide)

theorem balanced_helperArm :
    Balanced (Arm.mk (f.arm binding v).1 (f.arm binding v).2.text).text := by
  unfold Family.arm
  cases f.receives with
  | fields =>
    exact balanced_arm (balanced_ofVariant hv hb) (balanced_dispatch hv.label
      (List.forall_mem_map.2 fun p hp => balanced_field hb (hv.names p hp)))
  | case =>
    refine balanced_arm (balanced_bind hv hb) (balanced_dispatch hv.label fun i hi => ?_)
    rw [List.mem_singleton.1 hi]
    exact balanced_name hb

end

/-! ## Lines -/

/-- The lines leave `due'` due where `due` was due. Spaces and line ends do not matter. -/
def LinesLeave (due : List Char) (ls : List Line) (due' : List Char) : Prop :=
  Leaves due (String.join (ls.map Line.text)) due'

/-- Indentation and line ends open and close nothing. -/
theorem due?_linesText (due : List Char) (ls : List Line) :
    due? Bracket.unambiguous due (linesText ls) =
      due? Bracket.unambiguous due (String.join (ls.map Line.text)).toList := by
  have hspace : ∀ c ∈ [' ', '\n'], ∀ b ∈ Bracket.unambiguous, c ≠ b.opening ∧ c ≠ b.closing := by
    decide
  have hend : Nested Bracket.unambiguous ['\n'] := by decide
  induction ls generalizing due with
  | nil => rfl
  | cons l ls ih =>
    have hspaces : Nested Bracket.unambiguous (List.replicate (2 * l.depth) ' ') :=
      nested_of_bracketless fun c hc => hspace c (by rw [List.eq_of_mem_replicate hc]; decide)
    have htext : linesText (l :: ls) =
        List.replicate (2 * l.depth) ' ' ++ (l.text.toList ++ (['\n'] ++ linesText ls)) := by
      rw [linesText_cons, toList_render_spaces]
      simp only [List.append_assoc]
    rw [htext, due?_append, hspaces.due?, Option.bind_some, due?_append, List.map_cons,
      String.join_cons, String.toList_append, due?_append]
    refine Option.bind_congr fun due' _ => ?_
    rw [due?_append, hend.due?, Option.bind_some]
    exact ih due'

theorem LinesLeave.append {due₁ due₂ due₃ : List Char} {ls ms : List Line}
    (hl : LinesLeave due₁ ls due₂) (hm : LinesLeave due₂ ms due₃) :
    LinesLeave due₁ (ls ++ ms) due₃ := by
  unfold LinesLeave
  rw [List.map_append, String.join_append]
  exact Leaves.append hl hm

theorem linesLeave_nil (due : List Char) : LinesLeave due [] due := fun _ => rfl

theorem LinesLeave.cons {due₁ due₂ due₃ : List Char} {l : Line} {ls : List Line}
    (hl : Leaves due₁ l.text due₂) (hs : LinesLeave due₂ ls due₃) :
    LinesLeave due₁ (l :: ls) due₃ := by
  unfold LinesLeave
  rw [List.map_cons, String.join_cons]
  exact hl.append hs

/-- Lines of which each is balanced leave due what was due. -/
theorem linesLeave_of_balanced {ls : List Line} (h : ∀ l ∈ ls, Balanced l.text) (due : List Char) :
    LinesLeave due ls due := by
  induction ls with
  | nil => exact linesLeave_nil due
  | cons l ls ih =>
    exact .cons ((h l List.mem_cons_self).leaves due) (ih fun m hm => h m (List.mem_cons_of_mem l hm))

theorem linesLeave_map {α : Type} {f : α → String} {xs : List α} (h : ∀ x ∈ xs, Balanced (f x))
    (depth : Nat) (due : List Char) : LinesLeave due (xs.map fun x => ⟨depth, f x⟩) due :=
  linesLeave_of_balanced (List.forall_mem_map.2 h) due

/-- What is due below stays due. -/
theorem LinesLeave.below {due due' : List Char} {ls : List Line} (h : LinesLeave due ls due')
    (rest : List Char) : LinesLeave (due ++ rest) ls (due' ++ rest) := by
  intro below
  rw [List.append_assoc, List.append_assoc]
  exact h (rest ++ below)

theorem LinesLeave.deeper {due due' : List Char} {ls : List Line} (h : LinesLeave due ls due') :
    LinesLeave due (ls.map Line.deeper) due' := by
  unfold LinesLeave
  rw [List.map_map]
  exact h

/-! ## Sections of the code -/

section

variable {vs : List Variant} (hvs : ∀ v ∈ vs, BalancedTexts v) {binding : String}
  (hb : identifier.accepts binding.toList = true)

include hvs hb

/-- A helper closes the pair in front of its handlers in the line that opens its body. -/
theorem linesLeave_method (f : Family) : LinesLeave [] (f.method vs binding).lines [] := by
  obtain ⟨hname, hreturns⟩ := balanced_family f
  have hhead : Balanced (f.returns ++ " " ++ f.name) := (hreturns.append (by decide)).append hname
  have hpair : Leaves [] "<Result extends Object?>(\x7b" ['}', ')'] := fun _ => rfl
  have hopening : LinesLeave []
      [⟨0, f.returns ++ " " ++ f.name ++ "<Result extends Object?>(\x7b"⟩] ['}', ')'] :=
    .cons ((hhead.leaves []).append hpair) (linesLeave_nil _)
  have horElse : ∀ t ∈ (f.method vs binding).orElse.toList,
      Balanced ("required " ++ t ++ " Function() orElse,") := by
    intro t ht
    rw [eq_answerType ht]
    exact (Balanced.append (by decide) (balanced_answerType _)).append (by decide)
  have hhandlers : ∀ h ∈ (f.method vs binding).handlers, Balanced h.text :=
    List.forall_mem_map.2 fun v hv => balanced_handler (hvs v hv) f hb
  have hbody : LinesLeave ['}', ')'] [⟨0, if f.async then "\x7d) async \x7b" else "\x7d) \x7b"⟩,
      ⟨1, "return switch (this) \x7b"⟩] ['}', '}'] := by
    cases f.async with
    | false => exact fun _ => rfl
    | true => exact fun _ => rfl
  have harms : ∀ a ∈ (f.method vs binding).arms, Balanced (Arm.mk a.1 a.2.text).text :=
    List.forall_mem_map.2 fun v hv => balanced_helperArm (hvs v hv) f hb
  have hclosing : LinesLeave ['}', '}'] [⟨1, "\x7d;"⟩, ⟨0, "\x7d"⟩] [] := fun _ => rfl
  exact ((((hopening.append (linesLeave_map horElse 1 _)).append
    (linesLeave_map hhandlers 1 _)).append hbody).append (linesLeave_map harms 2 _)).append hclosing

/-- Helpers and the empty lines between them close what they open. -/
theorem linesLeave_methods (fs : List Family) : LinesLeave []
    ([Line.blank].intercalate (fs.map fun f => (f.method vs binding).lines.map Line.deeper)) [] := by
  have hblank : LinesLeave [] [Line.blank] [] := fun _ => rfl
  induction fs with
  | nil => exact linesLeave_nil []
  | cons f fs ih =>
    have hmethod := (linesLeave_method hvs hb f).deeper
    cases fs with
    | nil =>
      rw [List.map_singleton, List.intercalate_singleton]
      exact hmethod
    | cons g fs =>
      rw [List.map_cons, List.map_cons, List.intercalate_cons_cons]
      exact (hmethod.append hblank).append ih

end

/-- A class closes its brace behind its members, each of which is balanced. -/
theorem linesLeave_class {union : String} (hu : identifier.accepts union.toList = true)
    {v : Variant} (hv : BalancedTexts v) : LinesLeave [] (classLines union v) [] := by
  have hbrace : Leaves [] " \x7b" ['}'] := fun _ => rfl
  have hround : Leaves [] "(" [')'] := fun _ => rfl
  have hsquare : Leaves [] "List<Object?> get props => [" [']'] := fun _ => rfl
  have hname : Balanced ("final class " ++ v.typeName ++ " extends " ++ union) :=
    ((Balanced.append (by decide) (balanced_name hv.typeName)).append (by decide)).append
      (balanced_name hu)
  have hconst : Balanced ("const " ++ v.typeName) :=
    Balanced.append (by decide) (balanced_name hv.typeName)
  have hfield : ∀ p ∈ v.parameters, Balanced ("final " ++ typed p ++ ";") := fun p hp =>
    (Balanced.append (by decide) (balanced_typed hv hp)).append (by decide)
  have hconstructor : Balanced ("const " ++ v.typeName ++ "(" ++
      parameterList initialising v.parameters ++ ");") :=
    balanced_between ((hconst.leaves []).append hround)
      (balanced_parameterList fun p hp => balanced_initialising hv hp) fun _ => rfl
  have hprops : Balanced ("List<Object?> get props => [" ++
      commas (v.parameters.map Parameter.name) ++ "];") :=
    balanced_between hsquare (balanced_commas_map fun p hp => balanced_name (hv.names p hp))
      fun _ => rfl
  have hmembers : ∀ l ∈ bodyLines v, Balanced l.text := by
    intro l hl
    rcases List.mem_append.1 hl with hl | hl
    · split at hl
      · rw [List.mem_singleton.1 hl]
        exact hconst.append (by decide)
      · rcases List.mem_append.1 hl with hl | hl
        · obtain ⟨p, hp, rfl⟩ := List.mem_map.1 hl
          exact hfield p hp
        · simp only [List.mem_cons, List.not_mem_nil, or_false] at hl
          rcases hl with rfl | rfl
          · exact (by decide : Balanced "")
          · exact hconstructor
    · simp only [List.mem_cons, List.not_mem_nil, or_false] at hl
      rcases hl with rfl | rfl | rfl
      · exact (by decide : Balanced "")
      · exact (by decide : Balanced "@override")
      · exact hprops
  have hclosing : LinesLeave ['}'] [closing] [] := fun _ => rfl
  rw [classLines_eq]
  exact .cons ((hname.leaves []).append hbrace)
    ((linesLeave_of_balanced hmembers ['}']).append hclosing)

section

variable {o : Options} {d : Declaration} (hn : HasIdentifiers d)
  (hd : ∀ v ∈ d.variants, BalancedTexts v)

include hn hd

/-- The look-up by label closes its `switch` and its body. -/
theorem linesLeave_lookUp (due : List Char) : LinesLeave due (lookUpLines o d) due := by
  have hunmatched : Balanced (fallbackBody o d) := by
    unfold fallbackBody
    split
    · next v hv => exact balanced_construction (hd v (mem_of_fallback hv)) hn.name
    · decide
  have harms : ∀ a ∈ lookUpArms o d, Balanced a.text := by
    intro a ha
    rcases mem_lookUpArms ha with ⟨v, hv, rfl⟩ | rfl
    · exact balanced_arm ((Balanced.append (by decide) (balanced_escape (hd v hv).label)).append
        (by decide)) (balanced_construction (hd v hv) hn.name)
    · exact balanced_arm (by decide : Balanced "_") hunmatched
  have hname : Balanced ("factory " ++ d.name) := Balanced.append (by decide) (balanced_name hn.name)
  have hbrace : Leaves due ".fromString(String value) \x7b" ('}' :: due) := fun _ => rfl
  have hswitch : Leaves ('}' :: due) "return switch (value) \x7b" ('}' :: '}' :: due) :=
    fun _ => rfl
  have hopening : LinesLeave due [.blank,
      ⟨1, "factory " ++ d.name ++ ".fromString(String value) \x7b"⟩,
      ⟨2, "return switch (value) \x7b"⟩] ('}' :: '}' :: due) :=
    .cons (fun _ => rfl) (.cons ((hname.leaves due).append hbrace) (.cons hswitch (linesLeave_nil _)))
  have hclosing : LinesLeave ('}' :: '}' :: due) [⟨2, "\x7d;"⟩, ⟨1, "\x7d"⟩] due := fun _ => rfl
  unfold lookUpLines
  split
  · exact (hopening.append (linesLeave_map harms 3 _)).append hclosing
  · exact linesLeave_nil due

omit hn in
/-- The text form closes its `switch` and its body. -/
theorem linesLeave_text (due : List Char) : LinesLeave due (textLines d) due := by
  have hopening : LinesLeave due [⟨1, "@override"⟩, ⟨1, "String toString() \x7b"⟩,
      ⟨2, "return switch (this) \x7b"⟩] ('}' :: '}' :: due) := fun _ => rfl
  have harms : ∀ a ∈ textArms d, Balanced a.text :=
    List.forall_mem_map.2 fun v hv => balanced_textArm (hd v hv) (by decide)
  have hclosing : LinesLeave ('}' :: '}' :: due) [⟨2, "\x7d;"⟩, ⟨1, "\x7d"⟩] due := fun _ => rfl
  exact (hopening.append (linesLeave_map harms 3 _)).append hclosing

/-- The sealed class closes its brace behind its methods. -/
theorem linesLeave_sealed : LinesLeave [] (sealedLines o d) [] := by
  have hname := balanced_name hn.name
  have hheader : Leaves [] ("sealed class " ++ d.name ++ " extends Equatable \x7b") ['}'] :=
    ((Balanced.append (by decide) hname).leaves []).append fun _ => rfl
  have hconst : Leaves ['}'] ("const " ++ d.name ++ "();") ['}'] :=
    ((Balanced.append (by decide) hname).append (by decide)).leaves ['}']
  have hblank : LinesLeave ['}'] [Line.blank] ['}'] := fun _ => rfl
  have hopening : LinesLeave [] [⟨0, "sealed class " ++ d.name ++ " extends Equatable \x7b"⟩,
      ⟨1, "const " ++ d.name ++ "();"⟩, .blank] ['}'] := .cons hheader (.cons hconst hblank)
  have hfactories : LinesLeave ['}'] (d.variants.map fun v => ⟨1, redirect d.name v⟩) ['}'] :=
    linesLeave_map (fun v hv => balanced_redirect (hd v hv) hn.name) 1 _
  have hclosing : LinesLeave ['}'] [⟨0, "\x7d"⟩] [] := fun _ => rfl
  exact ((((hopening.append hfactories).append (linesLeave_lookUp hn hd _)).append hblank).append
    (linesLeave_text hd _)).append hclosing

/-- The extension closes its brace behind the helpers. -/
theorem linesLeave_extension (ho : Bracketless Bracket.unambiguous o.helperSuffix.toList) :
    LinesLeave [] (extensionLines o d) [] := by
  have hname := balanced_name hn.name
  have hsuffix : Balanced o.helperSuffix := nested_of_bracketless ho
  have hbinding : identifier.accepts (bindingName d).toList = true :=
    accepts_freeName (by decide) _ _
  have hhead : Balanced ("extension " ++ d.name ++ o.helperSuffix ++ " on " ++ d.name) :=
    (((Balanced.append (by decide) hname).append hsuffix).append (by decide)).append hname
  have hheader : LinesLeave [] [⟨0, "extension " ++ d.name ++ o.helperSuffix ++ " on " ++ d.name ++
      " \x7b"⟩] ['}'] := .cons ((hhead.leaves []).append fun _ => rfl) (linesLeave_nil _)
  have hhelpers : LinesLeave ['}'] (helperLines d) ['}'] :=
    (linesLeave_methods hd hbinding Family.all).below ['}']
  have hclosing : LinesLeave ['}'] [⟨0, "\x7d"⟩] [] := fun _ => rfl
  exact (hheader.append hhelpers).append hclosing

end

/-- Classes with an empty line in front of each close what they open. -/
theorem linesLeave_classes {union : String} (hu : identifier.accepts union.toList = true)
    {vs : List Variant} (hvs : ∀ v ∈ vs, BalancedTexts v) :
    LinesLeave [] (vs.flatMap fun v => .blank :: classLines union v) [] := by
  have hblank : LinesLeave [] [Line.blank] [] := fun _ => rfl
  induction vs with
  | nil => exact linesLeave_nil []
  | cons v vs ih =>
    have hclass := linesLeave_class hu (hvs v List.mem_cons_self)
    rw [List.flatMap_cons]
    exact (hblank.append hclass).append (ih fun w hw => hvs w (List.mem_cons_of_mem v hw))

/-! ## The code -/

/-- **The code of a union has its round, square and curly brackets nested**, every character of it
counted, when the types and the defaults of the parameters do. -/
theorem nested_code {o : Options} {d : Declaration} (hne : d.variants ≠ []) (hn : HasIdentifiers d)
    (htypes : ∀ v ∈ d.variants, ∀ p ∈ v.parameters,
      Nested Bracket.unambiguous p.typeExpression.toList)
    (hdefaults : ∀ v ∈ d.variants, ∀ p ∈ v.parameters, ∀ e ∈ p.defaultValue,
      Nested Bracket.unambiguous e.toList)
    (ho : Bracketless Bracket.unambiguous o.helperSuffix.toList) :
    ∃ text, d.code o = .ok text ∧ Nested Bracket.unambiguous text.toList := by
  have hd : ∀ v ∈ d.variants, BalancedTexts v := fun v hv =>
    ⟨hn.typeNames v hv, hn.labels v hv, hn.parameters v hv, htypes v hv, hdefaults v hv⟩
  have himport : LinesLeave [] (importLines o) [] := by
    unfold importLines
    split
    · exact fun _ => rfl
    · exact linesLeave_nil []
  have hblank : LinesLeave [] [Line.blank] [] := fun _ => rfl
  have hcode : LinesLeave [] (codeLines o d) [] :=
    (((himport.append (linesLeave_sealed hn hd)).append hblank).append
      (linesLeave_extension hn hd ho)).append (linesLeave_classes hn.name hd)
  refine ⟨render (codeLines o d), ?_, ?_⟩
  · rw [Declaration.code, List.isEmpty_eq_false_iff.2 hne, if_neg Bool.false_ne_true]
  · have htext := due?_linesText [] (codeLines o d)
    exact htext.trans (hcode [])

/-- A type with angle brackets, defaults that hold an arrow and brackets of all three kinds, and a
name that has to be escaped. -/
theorem nested_code_arrow : ∃ d : Declaration,
    d = ⟨"Result$", [⟨"Empty", "none", []⟩, ⟨"Many$", "many",
      [⟨"sizes", "Map<String, List<int>>", none, .positional⟩,
        ⟨"pick", "int Function(int)", some "((i) => [i, \x7bi\x7d.first][0])", .optionalPositional⟩]⟩,
      ⟨"One", "one", [⟨"at", "int", some "f(() => 0)", .named⟩,
        ⟨"by", "(int, int)", none, .requiredNamed⟩]⟩]⟩ ∧
    d.variants ≠ [] ∧ HasIdentifiers d ∧
    Bracketless Bracket.unambiguous "<>".toList ∧
    ∃ text, d.code { helperSuffix := "<>" } = .ok text ∧ Nested Bracket.unambiguous text.toList := by
  refine ⟨_, rfl, by decide, ⟨by decide, by decide, by decide, by decide⟩, by decide, ?_⟩
  exact nested_code (by decide) ⟨by decide, by decide, by decide, by decide⟩ (by decide) (by decide)
    (by decide)

end DartUnion.Output
