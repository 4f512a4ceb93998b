import DartUnion.Proofs.CodeTexts
import DartUnion.Proofs.Statements

/-!
# Generated code as source text

Most of the generated code is no factory, and reading it back must not make one of it. The look-up,
the text form and the helpers end in the brace of a `switch`, the list of fields ends in a square
bracket, and the declarations of fields hold no `=`. The one statement that may end like a
redirection is the constructor of a case: it ends in a closing bracket, and its defaults are written
with `=`. But the bracket closes a list that is not empty.

* `Calm` text has neither a semicolon nor a slash nor an `=`.
* `Idle` lines hold no slash and yield no variant, whatever calm statement is open in front of them;
  and they leave one open that is calm again.

Results:
* `silent_of_brackets`: a statement that ends in brackets with something in them is silent.
* `idle_lookUp`, `idle_text`, `idle_extension`, `idle_class`: **no section but the factories yields
  variants.**
-/

namespace DartUnion.Output

open DartUnion.Text DartUnion.Dart DartUnion.Source

/-! ## Properties of texts -/

/-- Neither a semicolon nor a slash nor an `=`. -/
def Calm (s : List Char) : Prop := Plain s ∧ '=' ∉ s

instance (s : List Char) : Decidable (Calm s) := inferInstanceAs (Decidable (_ ∧ _))

theorem plain_texture : Texture Plain := texture_of_chars fun c hc => by
  refine ⟨?_, ?_⟩
  · rintro rfl
    cases hc
  · rintro rfl
    cases hc

theorem nested_additive (kinds : List Bracket) : Additive (Nested kinds) := ⟨rfl, nested_append⟩

theorem calm_additive : Additive Calm := by
  refine ⟨by decide, fun hs ht => ⟨plain_append hs.1 ht.1, ?_⟩⟩
  rw [List.mem_append, not_or]
  exact ⟨hs.2, ht.2⟩

theorem calm_of_isGap {s : List Char} (h : IsGap s) : Calm s := ⟨plain_of_isGap h, h.not_mem rfl⟩

theorem calm_of_accepts {s : List Char} (h : identifier.accepts s = true) : Calm s :=
  ⟨plain_of_accepts h, fun hc => ne_of_next (next_of_accepts h hc) rfl rfl⟩

theorem calm_of_isTypeText {s : List Char} (h : IsTypeText s) : Calm s :=
  ⟨fun c hc => ⟨(h.plain c hc).2.1, (h.plain c hc).2.2.1⟩, fun hc => (h.plain _ hc).1 rfl⟩

/-! ## Silent statements -/

/-- A statement without `=` redirects nowhere. -/
theorem silent_of_not_mem {t : List Char} (h : '=' ∉ t) : Silent t := by
  intro a typeName r _ _ he
  refine h ((mem_oneLine_iff rfl).1 ?_)
  rw [he]
  exact List.mem_append_right a List.mem_cons_self

/-- A statement that ends in a brace or in a square bracket redirects nowhere. -/
theorem silent_of_getLast? {t : List Char} {c : Char} (hc : c = '}' ∨ c = ']')
    (h : t.getLast? = some c) : Silent t := by
  intro a typeName r ht hr he
  have hlast : (oneLine t).getLast? = some c := by
    rw [oneLine, List.getLast?_map, h, Option.map_some]
    rcases hc with rfl | rfl <;> rfl
  rw [he, getLast?_append_of_ne_nil a (List.cons_ne_nil '=' r)] at hlast
  rcases List.mem_cons.1 (List.mem_of_getLast? hlast) with he | hm
  · rcases hc with rfl | rfl <;> cases he
  · have hmem := mem_redirectionWritten (identifier_of_caseName ht) hr hm
    rcases hc with rfl | rfl <;> exact absurd hmem (by decide)

/-- Making lines one neither opens nor closes a bracket. -/
theorem due?_oneLine (due : List Char) (s : List Char) :
    due? [Bracket.round] due (oneLine s) = due? [Bracket.round] due s := by
  induction s generalizing due with
  | nil => rfl
  | cons c s ih =>
    have hc : dueAfter? [Bracket.round] due (if c = '\n' || c = '\r' then ' ' else c) =
        dueAfter? [Bracket.round] due c := by
      split
      · next hn =>
        rw [Bool.or_eq_true, decide_eq_true_eq, decide_eq_true_eq] at hn
        rcases hn with rfl | rfl <;> rfl
      · rfl
    show due? [Bracket.round] due ((if c = '\n' || c = '\r' then ' ' else c) :: oneLine s) = _
    rw [due?_cons, due?_cons, hc]
    cases dueAfter? [Bracket.round] due c with
    | none => rfl
    | some due₁ => exact ih due₁

theorem isGap_of_oneLine {s : List Char} (h : IsGap (oneLine s)) : IsGap s := by
  intro c hc
  have := h _ (List.mem_map_of_mem hc)
  split at this
  · next hn =>
    rw [Bool.or_eq_true, decide_eq_true_eq, decide_eq_true_eq] at hn
    rcases hn with rfl | rfl <;> rfl
  · exact this

/-- A redirection that ends in a bracket ends in empty brackets. -/
theorem eq_of_getLast?_redirection {typeName : String}
    (ht : identifier.accepts typeName.toList = true) {r : List Char}
    (h : RedirectionWritten typeName r) (hl : r.getLast? = some ')') :
    ∃ x inside, IsGap inside ∧ r = x ++ '(' :: (inside ++ [')']) := by
  obtain @⟨arrow, gap, brackets, back, ha, hg, hb, hk⟩ := h
  rw [← List.append_assoc, ← List.append_assoc, ← List.append_assoc] at hl
  have hback : back = [] := by
    by_cases hn : back = []
    · exact hn
    · rw [getLast?_append_of_ne_nil _ hn] at hl
      exact absurd (hk _ (List.mem_of_getLast? hl)) (by decide)
  rw [hback, List.append_nil] at hl
  cases hb with
  | absent =>
    rw [List.append_nil, getLast?_append_of_ne_nil _ (ne_nil_of_accepts ht)] at hl
    exact absurd (next_of_accepts ht (List.mem_of_getLast? hl)) (by decide)
  | present hb =>
    obtain @⟨front, inside, -, hi⟩ := hb
    refine ⟨arrow ++ (gap ++ (typeName.toList ++ front)), inside, hi, ?_⟩
    rw [hback]
    simp only [List.append_assoc, List.append_nil]

/-- **A statement that ends in brackets with something in them** redirects nowhere, when no `=` stands
in front of them. -/
theorem silent_of_brackets {a params : List Char} (ha : '=' ∉ a)
    (hp : Nested [Bracket.round] params) (hne : ¬ IsGap params) :
    Silent (a ++ '(' :: (params ++ [')'])) := by
  intro b typeName r ht hr he
  rw [oneLine_append, oneLine_cons _ (by decide), oneLine_append] at he
  have hlast : ('=' :: r).getLast? = some ')' := by
    rw [← getLast?_append_of_ne_nil b (List.cons_ne_nil '=' r), ← he, ← List.cons_append,
      ← List.append_assoc]
    exact List.getLast?_concat
  have hr' : r ≠ [] := by
    rintro rfl
    cases hlast
  rw [← List.singleton_append, getLast?_append_of_ne_nil _ hr'] at hlast
  obtain ⟨x, inside, hinside, rfl⟩ :=
    eq_of_getLast?_redirection (identifier_of_caseName ht) hr hlast
  have hsame : oneLine a ++ '(' :: oneLine params = (b ++ '=' :: x) ++ '(' :: inside := by
    refine (List.append_left_inj [')']).1 ?_
    simp only [List.append_assoc, List.cons_append]
    exact he
  rcases List.append_eq_append_iff.1 hsame with ⟨k, hk, hopen⟩ | ⟨k, hk, -⟩
  · cases k with
    | nil =>
      -- the brackets are those of the redirection, so they are empty
      have : oneLine params = inside := (List.cons.inj hopen).2
      exact hne (isGap_of_oneLine (by rw [this]; exact hinside))
    | cons c k =>
      -- the redirection opens a bracket within the parameters and leaves it open
      have hparams : oneLine params = k ++ '(' :: inside := (List.cons.inj hopen).2
      rw [Nested, ← due?_oneLine, hparams, due?_append] at hp
      obtain ⟨due, -, hdue⟩ := Option.bind_eq_some_iff.1 hp
      rw [due?_cons, dueAfter?_round, if_pos rfl, Option.bind_some,
        (guarded_of_isGap hinside).nested.round.due?] at hdue
      exact List.cons_ne_nil _ _ (Option.some.inj hdue)
  · refine ha ((mem_oneLine_iff rfl).1 ?_)
    rw [hk]
    exact List.mem_append_left k (List.mem_append_right b List.mem_cons_self)

/-! ## Lines -/

/-- A line is its text between a gap and a line end. -/
theorem toList_render (l : Line) :
    ∃ gap, IsGap gap ∧ l.render.toList = gap ++ (l.text.toList ++ ['\n']) := by
  refine ⟨_, fun c hc => ?_, toList_render_spaces l⟩
  rw [List.eq_of_mem_replicate hc]
  decide

/-- What holds of gaps and of each line holds of the lines. -/
theorem Additive.lines {P : List Char → Prop} (hP : Additive P) (hgap : ∀ s, IsGap s → P s)
    {ls : List Line} (h : ∀ l ∈ ls, P l.text.toList) : P (linesText ls) := by
  induction ls with
  | nil => exact hP.nil
  | cons l ls ih =>
    obtain ⟨gap, hg, he⟩ := toList_render l
    rw [linesText_cons, he]
    exact hP.append (hP.append (hgap gap hg) (hP.append (h l List.mem_cons_self)
      (hgap _ (by decide)))) (ih fun m hm => h m (List.mem_cons_of_mem l hm))

/-- The lines hold no slash and yield no variant, whatever calm statement is open in front of them;
they leave one open that is calm again. -/
structure Idle (ls : List Line) : Prop where
  slashless : '/' ∉ linesText ls
  silent : ∀ front, Calm front → ∃ back, Calm back ∧ Yields front (linesText ls) [] back

theorem Idle.append {ls ms : List Line} (hl : Idle ls) (hm : Idle ms) : Idle (ls ++ ms) := by
  refine ⟨?_, fun front hf => ?_⟩
  · rw [linesText_append, List.mem_append, not_or]
    exact ⟨hl.slashless, hm.slashless⟩
  · obtain ⟨middle, hmiddle, hfirst⟩ := hl.silent front hf
    obtain ⟨back, hback, hsecond⟩ := hm.silent middle hmiddle
    refine ⟨back, hback, ?_⟩
    rw [linesText_append]
    exact hfirst.append hsecond

/-- Idle pieces put together are idle. -/
theorem idle_flatMap {α : Type} {f : α → List Line} {xs : List α} (h : ∀ x ∈ xs, Idle (f x)) :
    Idle (xs.flatMap f) := by
  induction xs with
  | nil => exact ⟨List.not_mem_nil, fun front hf => ⟨front, hf, fun _ => rfl⟩⟩
  | cons x xs ih =>
    rw [List.flatMap_cons]
    exact (h x List.mem_cons_self).append (ih fun y hy => h y (List.mem_cons_of_mem x hy))

/-- Calm lines stay open. -/
theorem idle_of_calm {ls : List Line} (h : ∀ l ∈ ls, Calm l.text.toList) : Idle ls := by
  have hcalm := calm_additive.lines (fun _ => calm_of_isGap) h
  refine ⟨fun hc => (hcalm.1 _ hc).2 rfl, fun front hf => ?_⟩
  exact ⟨front ++ linesText ls, calm_additive.append hf hcalm, yields_open front _⟩

/-- A line that ends in a semicolon closes the statement, which is silent. -/
theorem yields_closed_line {ls : List Line} (hls : ∀ l ∈ ls, Plain l.text.toList) {t : String}
    (ht : Plain t.toList) (depth : Nat) :
    '/' ∉ linesText (ls ++ [⟨depth, t ++ ";"⟩]) ∧ ∀ front, Calm front →
      (∀ gap, IsGap gap → Silent (front ++ (linesText ls ++ (gap ++ t.toList)))) →
      Yields front (linesText (ls ++ [⟨depth, t ++ ";"⟩])) [] ['\n'] := by
  obtain ⟨gap, hg, hline⟩ := toList_render ⟨depth, t ++ ";"⟩
  have htext : linesText (ls ++ [⟨depth, t ++ ";"⟩]) =
      linesText ls ++ (gap ++ t.toList) ++ [';'] ++ ['\n'] := by
    rw [linesText_append, linesText_cons, hline, String.toList_append]
    show _ ++ (_ ++ []) = _
    simp only [List.append_assoc, List.append_nil]
    rfl
  have hplain : Plain (linesText ls) := plain_texture.lines (fun _ => plain_of_isGap) hls
  have hstatement : Plain (linesText ls ++ (gap ++ t.toList)) :=
    plain_append hplain (plain_append (plain_of_isGap hg) ht)
  refine ⟨?_, fun front hf hsilent => ?_⟩
  · rw [htext, List.mem_append, List.mem_append, not_or, not_or]
    exact ⟨⟨fun hc => (hstatement _ hc).2 rfl, by decide⟩, by decide⟩
  · have hclosed : Yields front (linesText ls ++ (gap ++ t.toList) ++ [';']) [] [] := yields_silent
      (fun hc => (plain_append hf.1 hstatement _ hc).1 rfl) (hsilent gap hg)
    rw [htext]
    exact hclosed.append (yields_open [] ['\n'])

theorem idle_closed {ls : List Line} (hls : ∀ l ∈ ls, Plain l.text.toList) {t : String}
    (ht : Plain t.toList)
    (h : ∀ front gap, Calm front → IsGap gap → Silent (front ++ (linesText ls ++ (gap ++ t.toList))))
    (depth : Nat) : Idle (ls ++ [⟨depth, t ++ ";"⟩]) := by
  obtain ⟨hslash, hyields⟩ := yields_closed_line hls ht depth
  exact ⟨hslash, fun front hf => ⟨['\n'], by decide, hyields front hf fun gap hg => h front gap hf hg⟩⟩

/-- A statement that ends in a brace or in a square bracket is idle. -/
theorem idle_of_getLast? {ls : List Line} (hls : ∀ l ∈ ls, Plain l.text.toList) {t : String}
    (ht : Plain t.toList) {c : Char} (hc : c = '}' ∨ c = ']') (hlast : t.toList.getLast? = some c)
    (depth : Nat) : Idle (ls ++ [⟨depth, t ++ ";"⟩]) := by
  refine idle_closed hls ht (fun front gap _ _ => silent_of_getLast? hc ?_) depth
  have hne : t.toList ≠ [] := by
    intro hn
    rw [hn] at hlast
    cases hlast
  rw [← List.append_assoc, ← List.append_assoc, getLast?_append_of_ne_nil _ hne]
  exact hlast

/-- A calm statement is idle. -/
theorem idle_of_calm_closed {t : String} (ht : Calm t.toList) (depth : Nat) :
    Idle [⟨depth, t ++ ";"⟩] := by
  refine @idle_closed [] (fun l hl => absurd hl List.not_mem_nil) t ht.1 ?_ depth
  intro front gap hf hg
  refine silent_of_not_mem (calm_additive.append hf (calm_additive.append calm_additive.nil
    (calm_additive.append (calm_of_isGap hg) ht))).2

theorem append_semicolon (s mark : String) : s ++ (mark ++ ";") = s ++ mark ++ ";" :=
  String.append_assoc.symm

/-! ## Names and types within code -/

/-- What generated code can carry as a default. -/
def IsCarriedDefault (s : List Char) : Prop := Nested [Bracket.round] s ∧ Plain s

instance (s : List Char) : Decidable (IsCarriedDefault s) := inferInstanceAs (Decidable (_ ∧ _))

theorem calm_typed {p : Parameter} {default : List Char → Prop} (hp : p.WellFormed default) :
    Calm (typed p).toList :=
  calm_additive.text (calm_additive.text (calm_of_isTypeText hp.type) (by decide))
    (calm_of_accepts hp.name)

/-- What a well-formed variant brings along is plain. -/
theorem variantTexts_plain {v : Variant} (hv : v.WellFormed IsCarriedDefault) :
    VariantTexts Plain v where
  typeName := identifier_of_caseName hv.typeName
  label := hv.label
  names := fun p hp => (hv.parameters p hp).name
  types := fun p hp => (calm_of_isTypeText (hv.parameters p hp).type).1
  defaults := fun p hp e he => ((hv.parameters p hp).default e he).2

/-! ## Sections of the code -/

/-- The end of a `switch` and of the method around it. -/
theorem idle_switch {ls : List Line} (hls : ∀ l ∈ ls, Plain l.text.toList) (inner outer : Nat) :
    Idle (ls ++ [⟨inner, "\x7d;"⟩, ⟨outer, "\x7d"⟩]) := by
  have hclosed : Idle (ls ++ [⟨inner, "\x7d" ++ ";"⟩]) :=
    idle_of_getLast? hls (by decide) (.inl rfl) rfl inner
  have houter : Idle [⟨outer, "\x7d"⟩] := idle_of_calm fun l hl => by
    rw [List.mem_singleton.1 hl]
    exact (by decide : Calm "\x7d".toList)
  have := hclosed.append houter
  rwa [List.append_assoc] at this

section

variable {d : Declaration} (hd : d.WellFormed IsCarriedDefault)

include hd

theorem identifier_name : identifier.accepts d.name.toList = true :=
  identifier_of_unionName hd.name

theorem variants_plain : ∀ v ∈ d.variants, VariantTexts Plain v :=
  fun v hv => variantTexts_plain (hd.variants v hv)

/-- The look-up by label yields no variant. -/
theorem idle_lookUp (o : Options) : Idle (lookUpLines o d) := by
  cases ho : o.fromString with
  | true =>
    obtain ⟨front, hlines, hfront⟩ :=
      plain_texture.lookUpLines (identifier_name hd) (variants_plain hd) ho
    rw [hlines]
    exact idle_switch hfront 2 1
  | false =>
    rw [lookUpLines, ho]
    exact idle_of_calm fun l hl => absurd hl List.not_mem_nil

/-- The text form yields no variant. -/
theorem idle_text : Idle (textLines d) := by
  obtain ⟨front, hlines, hfront⟩ := plain_texture.textLines (variants_plain hd)
  rw [hlines]
  exact idle_switch hfront 2 1

/-! ## Helpers -/

/-- A helper yields no variant, whatever plain lines stand in front of it. -/
theorem idle_method (f : Family) {pre : List Line} (hpre : ∀ l ∈ pre, Plain l.text.toList) :
    Idle (pre ++ (f.method d.variants (bindingName d)).lines.map Line.deeper) := by
  obtain ⟨front, hlines, hfront⟩ := plain_texture.methodLines (variants_plain hd) f
  rw [hlines, List.map_append, ← List.append_assoc]
  refine idle_switch (fun l hl => ?_) 2 1
  rcases List.mem_append.1 hl with hl | hl
  · exact hpre l hl
  · obtain ⟨m, hm, rfl⟩ := List.mem_map.1 hl
    exact hfront m hm

omit hd in
/-- Methods with empty lines between them are idle when each is idle behind plain lines. -/
theorem idle_intercalate {ms : List (List Line)} (hms : ms ≠ [])
    (h : ∀ m ∈ ms, ∀ pre : List Line, (∀ l ∈ pre, Plain l.text.toList) → Idle (pre ++ m))
    {pre : List Line} (hpre : ∀ l ∈ pre, Plain l.text.toList) :
    Idle (pre ++ [Line.blank].intercalate ms) := by
  induction ms generalizing pre with
  | nil => exact absurd rfl hms
  | cons m ms ih =>
    have hm := h m List.mem_cons_self pre hpre
    cases ms with
    | nil =>
      rw [List.intercalate_singleton]
      exact hm
    | cons n ms =>
      have hblank : ∀ l ∈ [Line.blank], Plain l.text.toList := by decide
      have hrest := ih (List.cons_ne_nil n ms) (fun k hk => h k (List.mem_cons_of_mem m hk)) hblank
      have := hm.append hrest
      rwa [List.append_assoc, ← List.append_assoc m, ← List.intercalate_cons_cons] at this

/-- The extension yields no variant. -/
theorem idle_extension {o : Options} (ho : Plain o.helperSuffix.toList) :
    Idle (extensionLines o d) := by
  have hname := plain_of_accepts (identifier_name hd)
  have hfamilies : Family.all.map (fun f => (f.method d.variants (bindingName d)).lines.map
      Line.deeper) ≠ [] := List.cons_ne_nil _ _
  have hheader : ∀ l ∈ [(⟨0, "extension " ++ d.name ++ o.helperSuffix ++ " on " ++ d.name ++
      " \x7b"⟩ : Line)], Plain l.text.toList := by
    intro l hl
    rw [List.mem_singleton.1 hl]
    exact plain_texture.extensionOpening hname ho
  refine Idle.append (idle_intercalate hfamilies (fun m hm pre hpre => ?_) hheader) ?_
  · obtain ⟨f, -, rfl⟩ := List.mem_map.1 hm
    exact idle_method hd f hpre
  · exact idle_of_calm (by decide)

/-! ## Classes -/

omit hd in
theorem nested_initialising {p : Parameter} (hp : p.WellFormed IsCarriedDefault) :
    Nested [Bracket.round] (initialising p).toList := by
  have hround := nested_additive [Bracket.round]
  have hname := (guarded_of_accepts hp.name).nested.round
  unfold initialising
  split
  · next e he =>
    exact hround.text (hround.text (hround.text (by decide) hname) (by decide)) (hp.default e he).1
  · exact hround.text (by decide) hname

omit hd in
theorem mem_commas {c : Char} {i : String} {items : List String} (hi : i ∈ items)
    (hc : c ∈ i.toList) : c ∈ (commas items).toList := by
  induction items with
  | nil => cases hi
  | cons j items ih =>
    cases items with
    | nil =>
      rw [commas_singleton, ← List.mem_singleton.1 hi]
      exact hc
    | cons k items =>
      rw [commas_cons_cons, List.mem_append, List.mem_cons, List.mem_append]
      rcases List.mem_cons.1 hi with rfl | hi
      · exact .inl hc
      · exact .inr (.inr (.inr (ih hi)))

omit hd in
theorem mem_bracketed {opening closing i : String} {c : Char} {items : List String} (hi : i ∈ items)
    (hc : c ∈ i.toList) : ∃ j ∈ bracketed opening closing items, c ∈ j.toList := by
  have hne : items.isEmpty = false := List.isEmpty_eq_false_iff.2 (List.ne_nil_of_mem hi)
  rw [bracketed, hne, if_neg Bool.false_ne_true]
  refine ⟨_, List.mem_cons_self, ?_⟩
  rw [String.toList_append, String.toList_append, List.mem_append, List.mem_append]
  exact .inl (.inr (mem_commas hi hc))

omit hd in
/-- No parameter gets lost on the way into a parameter list. -/
theorem mem_parameterList {shown : Parameter → String} {ps : List Parameter} {p : Parameter}
    {c : Char} (hp : p ∈ ps) (hc : c ∈ (shown p).toList) :
    c ∈ (parameterList shown ps).toList := by
  have hgroup : p ∈ inGroup p.kind.group ps := List.mem_filter.2 ⟨hp, beq_self_eq_true _⟩
  unfold parameterList
  cases hk : p.kind.group with
  | positional =>
    rw [hk] at hgroup
    exact mem_commas (List.mem_append_left _ (List.mem_append_left _ (List.mem_map_of_mem hgroup))) hc
  | optional =>
    rw [hk] at hgroup
    obtain ⟨j, hj, hcj⟩ := mem_bracketed (List.mem_map_of_mem hgroup) hc
    exact mem_commas (List.mem_append_left _ (List.mem_append_right _ hj)) hcj
  | named =>
    rw [hk] at hgroup
    have hnamed : c ∈ (stated shown p).toList := by
      unfold stated
      split
      · rw [String.toList_append, List.mem_append]
        exact .inr hc
      · exact hc
    obtain ⟨j, hj, hcj⟩ := mem_bracketed (List.mem_map_of_mem (f := stated shown) hgroup) hnamed
    exact mem_commas (List.mem_append_right _ hj) hcj

omit hd in
/-- The constructor of a case with parameters yields no variant. -/
theorem idle_constructor {v : Variant} (hv : v.WellFormed IsCarriedDefault)
    (hne : v.parameters ≠ []) :
    Idle [⟨1, "const " ++ v.typeName ++ "(" ++ parameterList initialising v.parameters ++ ");"⟩] := by
  have htype := calm_of_accepts (identifier_of_caseName hv.typeName)
  have hfront : Calm ("const " ++ v.typeName).toList := calm_additive.text (by decide) htype
  have hplain : Plain (parameterList initialising v.parameters).toList :=
    plain_texture.parameterList fun p hp =>
      plain_texture.initialising (hv.parameters p hp).name ((variantTexts_plain hv).defaults p hp)
  have hnested : Nested [Bracket.round] (parameterList initialising v.parameters).toList :=
    (nested_additive _).parameterList (by decide) fun p hp => nested_initialising (hv.parameters p hp)
  have hdot : ¬ IsGap (parameterList initialising v.parameters).toList := by
    obtain ⟨p, ps, hps⟩ := List.exists_cons_of_ne_nil hne
    have hp : p ∈ v.parameters := by
      rw [hps]
      exact List.mem_cons_self
    have hshown : '.' ∈ (initialising p).toList := by
      unfold initialising
      split <;> simp [String.toList_append]
    intro hgap
    exact hgap.not_mem rfl (mem_parameterList hp hshown)
  have hmark : "const " ++ v.typeName ++ "(" ++ parameterList initialising v.parameters ++ ");" =
      "const " ++ v.typeName ++ "(" ++ parameterList initialising v.parameters ++ ")" ++ ";" :=
    append_semicolon _ ")"
  rw [hmark]
  refine @idle_closed [] (fun l hl => absurd hl List.not_mem_nil) _ ?_ ?_ 1
  · exact plain_texture.text (plain_texture.text (plain_texture.text hfront.1 (by decide)) hplain)
      (by decide)
  · intro front gap hf hg
    have hcalm := calm_additive.append (calm_additive.append hf (calm_of_isGap hg)) hfront
    have := silent_of_brackets hcalm.2 hnested hdot
    simp only [String.toList_append, List.append_assoc] at this ⊢
    exact this

/-- The class of a case yields no variant. -/
theorem idle_class {v : Variant} (hv : v ∈ d.variants) :
    Idle (.blank :: classLines d.name v) := by
  have hwell := hd.variants v hv
  have htype := calm_of_accepts (identifier_of_caseName hwell.typeName)
  have hname := calm_of_accepts (identifier_of_unionName hd.name)
  have hheader : Idle [.blank,
      ⟨0, "final class " ++ v.typeName ++ " extends " ++ d.name ++ " \x7b"⟩] := by
    refine idle_of_calm fun l hl => ?_
    simp only [List.mem_cons, List.not_mem_nil, or_false] at hl
    rcases hl with rfl | rfl
    · exact (by decide : Calm "".toList)
    · exact calm_additive.text (calm_additive.text (calm_additive.text (calm_additive.text (by decide)
        htype) (by decide)) hname) (by decide)
  have hmembers : Idle (if v.isUnit then [⟨1, "const " ++ v.typeName ++ "();"⟩]
      else v.parameters.map (fun p => ⟨1, "final " ++ typed p ++ ";"⟩) ++
        [.blank, ⟨1, "const " ++ v.typeName ++ "(" ++ parameterList initialising v.parameters ++
          ");"⟩]) := by
    split
    · have hmark : "const " ++ v.typeName ++ "();" = "const " ++ v.typeName ++ "()" ++ ";" :=
        append_semicolon _ "()"
      rw [hmark]
      exact idle_of_calm_closed (calm_additive.text (calm_additive.text (by decide) htype)
        (by decide)) 1
    · next hunit =>
      have hne : v.parameters ≠ [] := fun hn => hunit (List.isEmpty_iff.2 hn)
      have hfields : Idle (v.parameters.map fun p => ⟨1, "final " ++ typed p ++ ";"⟩) := by
        rw [List.map_eq_flatMap]
        exact idle_flatMap fun p hp => idle_of_calm_closed
          (calm_additive.text (by decide) (calm_typed (hwell.parameters p hp))) 1
      have hblank : Idle [Line.blank] := idle_of_calm (by decide)
      exact hfields.append (hblank.append (idle_constructor hwell hne))
  have hprops : Idle ([.blank, ⟨1, "@override"⟩,
      ⟨1, "List<Object?> get props => [" ++ commas (v.parameters.map Parameter.name) ++ "];"⟩]) := by
    have hmark : "List<Object?> get props => [" ++ commas (v.parameters.map Parameter.name) ++ "];" =
        "List<Object?> get props => [" ++ commas (v.parameters.map Parameter.name) ++ "]" ++ ";" :=
      append_semicolon _ "]"
    rw [hmark]
    have hnames : Plain (commas (v.parameters.map Parameter.name)).toList :=
      plain_texture.commas_map fun p hp => plain_of_accepts (hwell.parameters p hp).name
    refine @idle_of_getLast? [.blank, ⟨1, "@override"⟩] (by decide) _ ?_ _ (.inr rfl) ?_ 1
    · exact plain_texture.text (plain_texture.text (by decide) hnames) (by decide)
    · rw [String.toList_append]
      exact getLast?_append_of_ne_nil _ (List.cons_ne_nil ']' [])
  have hend : Idle [⟨0, "\x7d"⟩] := idle_of_calm (by decide)
  exact hheader.append (hmembers.append (hprops.append hend))

end

end DartUnion.Output
