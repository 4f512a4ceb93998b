import DartUnion.Proofs.FactoryReading
import DartUnion.Source.Union

/-!
# From source text to factories

On its way to the factories a text loses its comments, its lines are made one, and it is cut at its
semicolons. In each statement the first whole word `factory` is looked for. This module says when
these stages leave a text as it is, and puts them together: the variants that a text contributes
depend on what went before it only through the statement that is still open.

* A scan for a word `Passes` over a text in which no word can start with the word's first letter.
* `variantsBehind front s` are the variants of a text, `front` being the open statement.
* `Yields front s vs back` says what a text does wherever the statement `front` is open: it adds the
  variants `vs` and leaves `back` open.

Results:
* `stripComments_of_unmarked`: a text without comment markers is left alone.
* `fromWord?_passes`, `findUnionName?_passes`: what is passed over does not matter.
* `Yields.append`: texts put one behind the other.
* `yields_written`: **a written factory yields its variant.**
* `yields_silent`: a statement without a redirection yields none.
-/

namespace DartUnion.Source

open DartUnion.Text DartUnion.Dart

/-! ## Comments -/

/-- No slash is followed by what would make a comment of it. -/
def Unmarked (s : List Char) : Prop :=
  ∀ a c b, s = a ++ '/' :: c :: b → c ≠ '/' ∧ c ≠ '*'

theorem unmarked_of_not_mem {s : List Char} (h : '/' ∉ s) : Unmarked s := by
  rintro a c b rfl
  exact absurd (List.mem_append_right a List.mem_cons_self) h

/-- A single slash starts no comment unless a star follows it. -/
theorem unmarked_of_single {a b : List Char} {c : Char} (ha : '/' ∉ a) (hb : '/' ∉ c :: b)
    (hc : c ≠ '*') : Unmarked (a ++ '/' :: c :: b) := by
  have hslash : c ≠ '/' := fun h => hb (by rw [h]; exact List.mem_cons_self)
  intro x e y he
  rcases List.append_eq_append_iff.1 he with ⟨k, -, hk⟩ | ⟨k, hx, hk⟩
  · cases k with
    | nil =>
      obtain ⟨-, h⟩ := List.cons.inj hk
      rw [← (List.cons.inj h).1]
      exact ⟨hslash, hc⟩
    | cons d k =>
      refine absurd ?_ hb
      rw [(List.cons.inj hk).2]
      exact List.mem_append_right k List.mem_cons_self
  · cases k with
    | nil =>
      obtain ⟨-, h⟩ := List.cons.inj hk
      rw [(List.cons.inj h).1]
      exact ⟨hslash, hc⟩
    | cons d k =>
      refine absurd ?_ ha
      rw [hx, ← (List.cons.inj hk).1]
      exact List.mem_append_right x List.mem_cons_self

theorem Unmarked.of_append {s t : List Char} (h : Unmarked (s ++ t)) : Unmarked t := by
  rintro a c b rfl
  exact h (s ++ a) c b (List.append_assoc s a _).symm

/-- What is no comment is kept. -/
theorem kept_nextLexeme {c : Char} {s : List Char} (h : Unmarked (c :: s)) :
    (nextLexeme c s).1.kept = (nextLexeme c s).1.text := by
  have hmarker : c = '/' → ∀ d t, s = d :: t → d ≠ '/' ∧ d ≠ '*' := by
    rintro rfl d t rfl
    exact h [] d t rfl
  unfold nextLexeme
  split
  · split
    · rfl
    · rfl
  · split
    · next hc =>
      split
      · exact absurd rfl (hmarker hc _ _ rfl).2
      · exact absurd rfl (hmarker hc _ _ rfl).1
      · rfl
    · rfl

/-- **A text without comment markers** is left alone. -/
theorem stripComments_of_unmarked {s : List Char} (h : Unmarked s) : stripComments s = s := by
  unfold stripComments
  fun_induction lexemes s with
  | case1 => rfl
  | case2 c s ih =>
    have htext := text_nextLexeme c s
    have hrest : Unmarked (nextLexeme c s).2 := by
      rw [← htext] at h
      exact h.of_append
    rw [List.flatMap_cons, ih hrest, kept_nextLexeme h, htext]

/-! ## One line -/

theorem mem_oneLine_iff {c : Char} (hc : isBlank c = false) {s : List Char} :
    c ∈ oneLine s ↔ c ∈ s := by
  unfold oneLine
  rw [List.mem_map]
  constructor
  · rintro ⟨d, hd, h⟩
    split at h
    · rw [← h] at hc
      cases hc
    · rwa [← h]
  · intro h
    refine ⟨c, h, if_neg fun hn => ?_⟩
    rw [Bool.or_eq_true, decide_eq_true_eq, decide_eq_true_eq] at hn
    rcases hn with rfl | rfl <;> cases hc

/-! ## Words -/

/-- No word can start at `first` within the text, `before` being the character in front of it. -/
def Passes (first : Char) : Option Char → List Char → Prop
  | _, [] => True
  | before, c :: s => (c = first → noWordChar before = false) ∧ Passes first (some c) s

/-- The last character so far is that of what was read last. -/
theorem getLast?_cons_or (c : Char) (s : List Char) (before : Option Char) :
    (c :: s).getLast?.or before = s.getLast?.or (some c) := by
  rw [List.getLast?_cons]
  cases s.getLast? <;> rfl

theorem passes_append {first : Char} {before : Option Char} {s t : List Char}
    (hs : Passes first before s) (ht : Passes first (s.getLast?.or before) t) :
    Passes first before (s ++ t) := by
  induction s generalizing before with
  | nil => exact ht
  | cons c s ih =>
    rw [getLast?_cons_or] at ht
    exact ⟨hs.1, ih hs.2 ht⟩

theorem passes_of_not_mem {first : Char} {s : List Char} (h : first ∉ s) (before : Option Char) :
    Passes first before s := by
  induction s generalizing before with
  | nil => trivial
  | cons c s ih =>
    obtain ⟨hc, hs⟩ := not_or.1 (fun hm => h (List.mem_cons.2 hm))
    exact ⟨fun he => absurd he.symm hc, ih hs (some c)⟩

/-- Within a name of letters and digits no other word starts. -/
theorem passes_of_isAlphanum {first : Char} {c : Char} {s : List Char} (hc : c ≠ first)
    (hs : ∀ d ∈ c :: s, d.isAlphanum = true) (before : Option Char) :
    Passes first before (c :: s) := by
  refine ⟨fun h => absurd h hc, ?_⟩
  clear hc
  induction s generalizing c with
  | nil => trivial
  | cons d s ih =>
    refine ⟨fun _ => ?_, ih fun e he => hs e (List.mem_cons_of_mem c he)⟩
    rw [noWordChar, Option.any_some, isWordChar_of_isAlphanum (hs c List.mem_cons_self)]
    rfl

/-- The name of a union starts with a capital. -/
theorem passes_unionName {first : Char} (hf : first.isUpper = false) {s : List Char}
    (h : unionName.accepts s = true) (before : Option Char) : Passes first before s := by
  cases s with
  | nil => cases h
  | cons c s =>
    simp only [NameClass.accepts, Bool.and_eq_true, List.all_eq_true, unionName] at h
    refine passes_of_isAlphanum ?_ (fun d hd => ?_) before
    · rintro rfl
      rw [h.1] at hf
      cases hf
    · rcases List.mem_cons.1 hd with rfl | hd
      · simp only [Char.isAlphanum, isAlpha_of_isUpper h.1, Bool.true_or]
      · exact h.2 d hd

/-- What is passed over does not matter to the search for a word. -/
theorem fromWord?_passes {first : Char} {before : Option Char} {a : List Char}
    (h : Passes first before a) (word s : List Char) :
    fromWord? (first :: word) before (a ++ s) =
      fromWord? (first :: word) (a.getLast?.or before) s := by
  induction a generalizing before with
  | nil => rfl
  | cons c a ih =>
    have hstarts : startsWithWord (first :: word) before (c :: (a ++ s)) = false := by
      unfold startsWithWord
      by_cases hc : c = first
      · rw [h.1 hc]
        rfl
      · rw [List.isPrefixOf, beq_eq_false_iff_ne.2 (Ne.symm hc), Bool.false_and, Bool.and_false,
          Bool.false_and]
    rw [List.cons_append, fromWord?, hstarts, if_neg Bool.false_ne_true, ih h.2, getLast?_cons_or]

/-- A word is found where it stands, between what belongs to no word. -/
theorem fromWord?_word {first : Char} {word s : List Char} {before : Option Char}
    (hb : noWordChar before = true) (hs : noWordChar s.head? = true) :
    fromWord? (first :: word) before (first :: word ++ s) = some (first :: word ++ s) := by
  rw [List.cons_append, fromWord?, if_pos]
  rw [startsWithWord, hb, ← List.cons_append, List.drop_left, hs,
    List.isPrefixOf_iff_prefix.2 (List.prefix_append _ s)]
  rfl

/-! ## Headers -/

theorem findUnionName?_passes {before : Option Char} {a : List Char} (h : Passes 'c' before a)
    (s : List Char) : findUnionName? before (a ++ s) = findUnionName? (a.getLast?.or before) s := by
  induction a generalizing before with
  | nil => rfl
  | cons c a ih =>
    have hnone : (if noWordChar before then headerName? (c :: (a ++ s)) else none) = none := by
      split
      · next hb =>
        have hc : c ≠ 'c' := by
          intro hc
          rw [h.1 hc] at hb
          cases hb
        have hprefix : "class".toList.isPrefixOf (c :: (a ++ s)) = false := by
          show (('c' == c) && _) = false
          rw [beq_eq_false_iff_ne.2 (Ne.symm hc), Bool.false_and]
        rw [headerName?, dropWord?, hprefix]
        rfl
      · rfl
    rw [List.cons_append, findUnionName?, hnone]
    simp only
    rw [ih h.2, getLast?_cons_or]

/-- The name behind the word `class`. -/
theorem findUnionName?_header {before : Option Char} (hb : noWordChar before = true)
    {space name rest : List Char} (hs : IsSpace space) (hn : unionName.accepts name = true)
    (hr : ∀ c, rest.head? = some c → unionName.next c = false) :
    findUnionName? before ("class".toList ++ (space ++ (name ++ rest))) = some name := by
  have hhead : ∀ c, (name ++ rest).head? = some c → isBlank c = false := by
    intro c hc
    rw [← trimStart_name (identifier_of_unionName hn)] at hc
    exact head?_trimStart hc
  have hheader : headerName? ("class".toList ++ (space ++ (name ++ rest))) = some name := by
    unfold headerName?
    rw [dropWord?_append]
    simp only [Option.bind_eq_bind, Option.bind_some, dropBlanks?_of_isSpace hs hhead,
      scan?_name hn hr]
    rfl
  have hcons : "class".toList ++ (space ++ (name ++ rest)) =
      'c' :: ("lass".toList ++ (space ++ (name ++ rest))) := rfl
  rw [hcons, findUnionName?, if_pos hb, ← hcons, hheader]

/-! ## What a text yields -/

/-- The variant of a statement. -/
def statementVariant? (statement : List Char) : Option Variant :=
  (fragment? (oneLine statement)).bind variant?

/-- The variants of a text behind a statement that is still open. -/
def variantsBehind (front s : List Char) : List Variant :=
  (statements (front ++ s)).filterMap statementVariant?

/-- Behind the open statement `front` the text adds the variants `vs` and leaves `back` open. -/
def Yields (front s : List Char) (vs : List Variant) (back : List Char) : Prop :=
  ∀ rest, variantsBehind front (s ++ rest) = vs ++ variantsBehind back rest

/-- Making lines one does not move a semicolon. -/
theorem statements_oneLine (s : List Char) :
    statements (oneLine s) = (statements s).map oneLine := by
  refine endedBy_map (fun c => ?_) s
  split
  · next hc =>
    rw [Bool.or_eq_true, decide_eq_true_eq, decide_eq_true_eq] at hc
    rcases hc with rfl | rfl <;> decide
  · exact Iff.rfl

/-- A text is read statement by statement. -/
theorem variants_eq (s : List Char) : variants s = variantsBehind [] s := by
  rw [variants, fragments, statements_oneLine, List.filterMap_filterMap, List.filterMap_map]
  rfl

theorem Yields.append {a b c s t : List Char} {vs ws : List Variant} (hs : Yields a s vs b)
    (ht : Yields b t ws c) : Yields a (s ++ t) (vs ++ ws) c := by
  intro rest
  rw [List.append_assoc, hs, ht, List.append_assoc]

/-- A text stays open as a whole. -/
theorem yields_open (front s : List Char) : Yields front s [] (front ++ s) := by
  intro rest
  rw [variantsBehind, variantsBehind, List.append_assoc]
  rfl

/-- A semicolon closes the statement that is open. -/
theorem yields_closed {front t : List Char} (h : ';' ∉ front ++ t) :
    Yields front (t ++ [';']) (statementVariant? (front ++ t)).toList [] := by
  intro rest
  have hclosed := statements_closed h rest
  rw [List.append_assoc] at hclosed
  rw [variantsBehind, List.append_assoc, List.singleton_append, hclosed, List.filterMap_cons]
  cases statementVariant? (front ++ t) <;> rfl

/-- What is left open at the end counts for nothing. -/
theorem variantsBehind_open {front s : List Char} (h : ';' ∉ front ++ s) :
    variantsBehind front s = [] := by
  rw [variantsBehind, statements_open h]
  rfl

/-! ## Written factories -/

/-- Neither a semicolon nor a slash, so that a text neither ends a statement nor holds a comment. -/
def Plain (s : List Char) : Prop := ∀ c ∈ s, c ≠ ';' ∧ c ≠ '/'

instance (s : List Char) : Decidable (Plain s) := inferInstanceAs (Decidable (∀ c ∈ s, _))

theorem plain_append {s t : List Char} (hs : Plain s) (ht : Plain t) : Plain (s ++ t) := by
  intro c hc
  rcases List.mem_append.1 hc with hc | hc
  · exact hs c hc
  · exact ht c hc

theorem plain_cons {c : Char} {s : List Char} (hc : c ≠ ';' ∧ c ≠ '/') (hs : Plain s) :
    Plain (c :: s) :=
  List.forall_mem_cons.2 ⟨hc, hs⟩

theorem plain_of_isGap {s : List Char} (h : IsGap s) : Plain s :=
  fun c hc => ⟨ne_of_isBlank (h c hc) rfl, ne_of_isBlank (h c hc) rfl⟩

theorem plain_of_accepts {s : List Char} (h : identifier.accepts s = true) : Plain s :=
  fun _ hc => ⟨ne_of_next (next_of_accepts h hc) rfl, ne_of_next (next_of_accepts h hc) rfl⟩

theorem Keyword.plain {word : String} (hw : identifier.accepts word.toList = true) {s : List Char}
    (h : Keyword word s) : Plain s := by
  obtain ⟨hs⟩ := h
  exact plain_append (plain_of_accepts hw) (plain_of_isGap hs.1)

theorem Optionally.plain {form : List Char → Prop} {s : List Char} (h : Optionally form s)
    (hf : ∀ t, form t → Plain t) : Plain s := by
  cases h with
  | absent => exact fun _ hc => absurd hc List.not_mem_nil
  | present h => exact hf s h

theorem DefaultWritten.plain {default : Option String}
    (hd : ∀ d, default = some d → IsDefaultText d.toList) {s : List Char}
    (h : DefaultWritten default s) : Plain s := by
  cases h with
  | absent => decide
  | @given d front back hf hb =>
    have hdefault : Plain d.toList :=
      fun c hc => ⟨((hd d rfl).plain c hc).1, ((hd d rfl).plain c hc).2.1⟩
    exact plain_append (plain_append (plain_of_isGap hf)
      (plain_cons (by decide) (plain_of_isGap hb))) hdefault

theorem plain_parameter {p : Parameter} (hp : p.WellFormed IsDefaultText) {s : List Char}
    (h : p.WrittenAs s) : Plain s := by
  obtain @⟨front, required, final, space, value, back, hf, hr, hm, hs, hv, hb⟩ := h
  have hrequired : Plain required := by
    split at hr
    · exact hr.plain (by decide)
    · rw [hr]
      decide
  have htype : Plain p.typeExpression.toList :=
    fun c hc => ⟨(hp.type.plain c hc).2.1, (hp.type.plain c hc).2.2.1⟩
  exact plain_append (plain_append (plain_of_isGap hf) (plain_append hrequired (plain_append
    (hm.plain fun _ => Keyword.plain (by decide)) (plain_append (plain_append (plain_append htype
      (plain_of_isGap hs.1)) (plain_of_accepts hp.name)) (hv.plain hp.default))))) (plain_of_isGap hb)

theorem ItemsWritten.plain {ps : List Parameter} {s : List Char} (h : ItemsWritten ps s)
    (hp : ∀ p ∈ ps, p.WellFormed IsDefaultText) : Plain s := by
  induction h with
  | last h => exact plain_parameter (hp _ List.mem_cons_self) h
  | lastComma h hg =>
    exact plain_append (plain_parameter (hp _ List.mem_cons_self) h)
      (plain_cons (by decide) (plain_of_isGap hg))
  | cons h _ ih =>
    exact plain_append (plain_parameter (hp _ List.mem_cons_self) h)
      (plain_cons (by decide) (ih fun q hq => hp q (List.mem_cons_of_mem _ hq)))

theorem PartWritten.plain {ps : List Parameter} {s : List Char} (h : PartWritten ps s)
    (hp : ∀ p ∈ ps, p.WellFormed IsDefaultText) : Plain s := by
  cases h with
  | positional _ h => exact plain_parameter (hp _ List.mem_cons_self) h
  | optional _ hf h hb =>
    exact plain_append (plain_of_isGap hf) (plain_cons (by decide)
      (plain_append (h.plain hp) (plain_cons (by decide) (plain_of_isGap hb))))
  | named _ hf h hb =>
    exact plain_append (plain_of_isGap hf) (plain_cons (by decide)
      (plain_append (h.plain hp) (plain_cons (by decide) (plain_of_isGap hb))))

theorem ListWritten.plain {ps : List Parameter} {s : List Char} (h : ListWritten ps s)
    (hp : ∀ p ∈ ps, p.WellFormed IsDefaultText) : Plain s := by
  induction h with
  | nil hg => exact plain_of_isGap hg
  | last h => exact h.plain hp
  | cons h _ ih =>
    exact plain_append (h.plain fun p hm => hp p (List.mem_append_left _ hm))
      (plain_cons (by decide) (ih fun p hm => hp p (List.mem_append_right _ hm)))

theorem HeadWritten.plain {union label : String} (hu : identifier.accepts union.toList = true)
    (hl : identifier.accepts label.toList = true) {s : List Char}
    (h : HeadWritten union label s) : Plain s := by
  obtain ⟨hs, h₁, h₂, h₃⟩ := h
  exact plain_append (by decide) (plain_append (plain_of_isGap hs.1) (plain_append
    (plain_of_accepts hu) (plain_append (plain_of_isGap h₁) (plain_cons (by decide) (plain_append
      (plain_of_isGap h₂) (plain_append (plain_of_accepts hl) (plain_of_isGap h₃)))))))

theorem RedirectionWritten.plain {typeName : String}
    (ht : identifier.accepts typeName.toList = true) {s : List Char}
    (h : RedirectionWritten typeName s) : Plain s := by
  intro c hc
  rcases mem_redirectionWritten ht h hc with rfl | rfl | rfl | hc | hc
  · decide
  · decide
  · decide
  · exact ⟨ne_of_isBlank hc rfl, ne_of_isBlank hc rfl⟩
  · exact ⟨ne_of_next hc rfl, ne_of_next hc rfl⟩

/-- A written factory holds neither a semicolon nor a slash. -/
theorem plain_variant {union : String} (hu : identifier.accepts union.toList = true) {v : Variant}
    (hv : v.WellFormed IsDefaultText) {s : List Char} (h : v.WrittenAs union s) : Plain s := by
  obtain ⟨hf, hc, hh, hl, hg, hr⟩ := h
  exact plain_append (plain_append (plain_of_isGap hf) (hc.plain fun _ => Keyword.plain (by decide)))
    (plain_append (hh.plain hu hv.label) (plain_cons (by decide) (plain_append
      (hl.plain hv.parameters) (plain_cons (by decide) (plain_append (plain_of_isGap hg)
        (plain_cons (by decide) (hr.plain (identifier_of_caseName hv.typeName))))))))

/-- The statement that is open ends where a word may start, and no `factory` starts within it. -/
structure Opening (s : List Char) : Prop where
  passes : Passes 'f' none s
  last : noWordChar s.getLast? = true

theorem opening_append {s t : List Char} (hs : Opening s) (ht : 'f' ∉ t)
    (hl : ∀ c, t.getLast? = some c → isWordChar c = false) : Opening (s ++ t) := by
  refine ⟨passes_append hs.passes (passes_of_not_mem ht _), ?_⟩
  rw [List.getLast?_append]
  cases h : t.getLast? with
  | none => exact hs.last
  | some c =>
    show noWordChar (some c) = true
    rw [noWordChar, Option.any_some, hl c h]
    rfl

theorem Opening.gap {s gap : List Char} (hs : Opening s) (hg : IsGap gap) : Opening (s ++ gap) :=
  opening_append hs (hg.not_mem rfl) fun c hc =>
    isWordChar_of_isBlank (hg c (List.mem_of_getLast? hc))

theorem Opening.keyword {s const : List Char} (hs : Opening s)
    (hc : Optionally (Keyword "const") const) : Opening (s ++ const) := by
  cases hc with
  | absent => rwa [List.append_nil]
  | present h =>
    obtain @⟨space, hspace⟩ := h
    refine opening_append hs ?_ fun c hc => ?_
    · rw [List.mem_append, not_or]
      exact ⟨by decide, hspace.1.not_mem rfl⟩
    · rw [getLast?_append_of_ne_nil _ hspace.2] at hc
      exact isWordChar_of_isBlank (hspace.1 c (List.mem_of_getLast? hc))

/-- The fragment of a factory starts at its head. -/
theorem fragment?_headWritten {front : List Char} (hf : Opening front) {union label : String}
    {head : List Char} (h : HeadWritten union label head) (s : List Char) :
    fragment? (front ++ (head ++ s)) = some (head ++ s ++ [';']) := by
  obtain @⟨space, gap₁, gap₂, gap₃, hs, -, -, -⟩ := h
  have hlast : noWordChar (front.getLast?.or none) = true := by
    rw [Option.or_none]
    exact hf.last
  have hspace : ∀ t, noWordChar (space ++ t).head? = true := by
    intro t
    obtain ⟨c, rest, hc⟩ := List.exists_cons_of_ne_nil hs.2
    have hblank := hs.1 c (by rw [hc]; exact List.mem_cons_self)
    rw [hc, List.cons_append, List.head?_cons, noWordChar, Option.any_some,
      isWordChar_of_isBlank hblank]
    rfl
  have hfactory : "factory".toList = 'f' :: "actory".toList := rfl
  rw [fragment?, hfactory, fromWord?_passes hf.passes, List.append_assoc, List.append_assoc,
    fromWord?_word hlast (hspace _)]
  rfl

/-- **A written factory yields its variant**, whatever statement is open in front of it. -/
theorem yields_written {union : String} (hu : identifier.accepts union.toList = true) {v : Variant}
    (hv : v.WellFormed IsDefaultText) {front t : List Char} (hf : Opening (oneLine front))
    (hm : ';' ∉ front) (h : v.WrittenAs union t) : Yields front (t ++ [';']) [v] [] := by
  have hclosed : ';' ∉ front ++ t := by
    rw [List.mem_append, not_or]
    exact ⟨hm, fun hc => (plain_variant hu hv h _ hc).1 rfl⟩
  have hvariant : statementVariant? (front ++ t) = some v := by
    rw [statementVariant?, oneLine_append]
    have hone := oneLine_variant hu hv h
    generalize oneLine t = u at hone
    obtain @⟨gap, const, head, params, inner, redirection, hg, hc, hh, hl, -, hr⟩ := hone
    have hfragment := fragment?_headWritten ((hf.gap hg).keyword hc) hh
      ('(' :: (params ++ ')' :: (inner ++ '=' :: redirection)))
    rw [List.append_assoc (oneLine front)] at hfragment
    rw [← List.append_assoc, hfragment]
    exact variant?_written hu hv hh hl hr
  have := yields_closed hclosed
  rwa [hvariant] at this

/-! ## Silent statements -/

/-- What is trimmed away is blank. -/
theorem eq_gaps_trim (s : List Char) :
    ∃ front back, IsGap front ∧ IsGap back ∧ s = front ++ (trim s ++ back) := by
  obtain ⟨front, hf, hs⟩ := eq_gap_append_trimStart s
  refine ⟨front, ((trimStart s).reverse.takeWhile isBlank).reverse, hf, fun c hc => ?_, ?_⟩
  · exact List.all_eq_true.1 List.all_takeWhile c (List.mem_reverse.1 hc)
  · rw [trim, trimEnd, ← List.reverse_append, List.takeWhile_append_dropWhile,
      List.reverse_reverse]
    exact hs

/-- Trimming only takes blanks. -/
theorem mem_trim {c : Char} (hc : isBlank c = false) {s : List Char} (h : c ∈ s) : c ∈ trim s := by
  obtain ⟨front, back, hf, hb, hs⟩ := eq_gaps_trim s
  rw [hs] at h
  simpa [hf.not_mem hc, hb.not_mem hc] using h

/-- No redirection stands at the end of the statement. -/
def Silent (statement : List Char) : Prop :=
  ∀ a typeName r, caseName.accepts (String.toList typeName) = true →
    RedirectionWritten typeName r → oneLine statement ≠ a ++ '=' :: r

/-- A statement without a redirection at its end is no factory. -/
theorem statementVariant?_of_silent {t : List Char} (h : Silent t) :
    statementVariant? t = none := by
  cases hv : statementVariant? t with
  | none => rfl
  | some v =>
    exfalso
    obtain ⟨fragment, hfragment, hvariant⟩ := Option.bind_eq_some_iff.1 hv
    obtain ⟨u, hu, rfl⟩ := Option.map_eq_some_iff.1 hfragment
    obtain ⟨before, hbefore⟩ := (fromWord?_isSuffix hu).1
    unfold variant? at hvariant
    obtain ⟨name, hname, -⟩ := Option.bind_eq_some_iff.1 hvariant
    obtain ⟨a, b, htrim, hb⟩ := eq_of_redirectedCase? hname
    obtain ⟨haccepts, r, hr, rfl⟩ := eq_of_caseBehind? hb
    obtain ⟨front, back, -, hback, hsplit⟩ := eq_gaps_trim (u ++ [';'])
    rw [htrim] at hsplit
    -- the semicolon is the last character on both sides, so nothing was trimmed behind it
    have hnil : back = [] := by
      rcases List.eq_nil_or_concat back with h | ⟨rest, c, rfl⟩
      · exact h
      · have hlast := congrArg List.getLast? hsplit
        simp only [List.getLast?_append, List.getLast?_singleton, Option.some_or,
          List.concat_eq_append] at hlast
        obtain rfl : ';' = c := Option.some.inj hlast
        exact absurd (hback ';' (by simp)) (by decide)
    rw [hnil, List.append_nil, ← List.cons_append, ← List.append_assoc, ← List.append_assoc] at hsplit
    have hu' := List.append_cancel_right hsplit
    refine h (before ++ (front ++ a)) _ r (by rwa [String.toList_ofList]) hr ?_
    rw [← hbefore, hu']
    simp only [List.append_assoc]

/-- A silent statement yields nothing. -/
theorem yields_silent {front t : List Char} (hm : ';' ∉ front ++ t) (h : Silent (front ++ t)) :
    Yields front (t ++ [';']) [] [] := by
  have := yields_closed hm
  rwa [statementVariant?_of_silent h] at this

end DartUnion.Source
