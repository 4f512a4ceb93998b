import DartUnion.Proofs.GeneratedText

/-!
# Factories with a body

A factory may have a body in braces in place of a redirection. It declares no case, so it should not
count. But a text is cut at its semicolons before anything is known of braces: the statement of such
a factory goes on to the first semicolon behind its head, be that within the body or far behind it,
and what stands in front of that semicolon is taken for the end of the factory.

* `HoldsWord word s`: the word stands in the text as a whole word.
* `Redirects statement typeName`: the statement ends in a redirection to the case.
* `blockFactory`: a factory with a body.

Results:
* `fromWord?_eq_none_iff`: a word is not found exactly when it does not stand there.
* `redirects_behind_iff`: a redirection stands behind every brace.
* `variants_wordless`: a text without the word `factory` yields nothing up to the brace behind it.
* `variants_blockFactory_closed`, `variants_blockFactory_open`: what a factory with a body does when
  its statement ends within the body, and when it ends behind it.
* `variants_blockFactory_iff`: **exactly when a factory with a body does not count.**
-/

namespace DartUnion.Source

open DartUnion.Text DartUnion.Dart

/-! ## Whole words -/

/-- The word stands in the text, and at both of its ends the text ends or no word goes on. -/
def HoldsWord (word s : List Char) : Prop :=
  ∃ front back, s = front ++ (word ++ back) ∧ noWordChar front.getLast? = true ∧
    noWordChar back.head? = true

variable {word s t : List Char} {before : Option Char} {c : Char}

theorem startsWithWord_iff : startsWithWord word before s = true ↔
    noWordChar before = true ∧ ∃ back, s = word ++ back ∧ noWordChar back.head? = true := by
  unfold startsWithWord
  rw [Bool.and_eq_true, Bool.and_eq_true, List.isPrefixOf_iff_prefix, and_assoc]
  constructor
  · rintro ⟨hbefore, ⟨back, rfl⟩, hback⟩
    rw [List.drop_left] at hback
    exact ⟨hbefore, back, rfl, hback⟩
  · rintro ⟨hbefore, back, rfl, hback⟩
    refine ⟨hbefore, List.prefix_append word back, ?_⟩
    rwa [List.drop_left]

/-- **A word is not found** exactly when it does not stand there. -/
theorem fromWord?_eq_none_iff (hw : word ≠ []) : fromWord? word before s = none ↔
    ∀ front back, s = front ++ (word ++ back) → noWordChar back.head? = true →
      noWordChar (front.getLast?.or before) = false := by
  induction s generalizing before with
  | nil =>
    refine iff_of_true rfl fun front back he => ?_
    simp [hw] at he
  | cons c s ih =>
    rw [fromWord?]
    constructor
    · intro h front back he hback
      split at h
      · cases h
      · next hstarts =>
        cases front with
        | nil =>
          rw [Bool.eq_false_iff]
          intro hbefore
          exact hstarts (startsWithWord_iff.2 ⟨hbefore, back, he, hback⟩)
        | cons d front =>
          obtain ⟨rfl, hs⟩ := List.cons.inj he
          rw [getLast?_cons_or]
          exact ih.1 h front back hs hback
    · intro h
      split
      · next hstarts =>
        obtain ⟨hbefore, back, he, hback⟩ := startsWithWord_iff.1 hstarts
        have hno := h [] back he hback
        rw [List.getLast?_nil, Option.none_or, hbefore] at hno
        cases hno
      · refine ih.2 fun front back hs hback => ?_
        rw [← getLast?_cons_or c front before]
        exact h (c :: front) back (by rw [hs]; rfl) hback

theorem fromWord?_eq_none_iff_not_holdsWord (hw : word ≠ []) :
    fromWord? word none s = none ↔ ¬ HoldsWord word s := by
  rw [fromWord?_eq_none_iff hw]
  constructor
  · rintro h ⟨front, back, he, hfront, hback⟩
    have hno := h front back he hback
    rw [Option.or_none, hfront] at hno
    cases hno
  · intro h front back he hback
    rw [Option.or_none, Bool.eq_false_iff]
    intro hfront
    exact h ⟨front, back, he, hfront, hback⟩

instance (s : List Char) : Decidable (HoldsWord "factory".toList s) :=
  decidable_of_iff (fromWord? "factory".toList none s ≠ none) <| by
    rw [Ne, fromWord?_eq_none_iff_not_holdsWord (by decide), Classical.not_not]

/-- What a text holds in front of the end of a word it still holds when it goes on. -/
theorem HoldsWord.append (h : HoldsWord word s) (hc : noWordChar (some c) = true)
    (t : List Char) : HoldsWord word (s ++ c :: t) := by
  obtain ⟨front, back, rfl, hfront, hback⟩ := h
  refine ⟨front, back ++ c :: t, by simp only [List.append_assoc], hfront, ?_⟩
  cases back with
  | nil => exact hc
  | cons d back => exact hback

/-- What a text holds behind the end of a word it holds whatever stands in front. -/
theorem HoldsWord.behind (h : HoldsWord word t) (hc : noWordChar (some c) = true)
    (s : List Char) : HoldsWord word (s ++ c :: t) := by
  obtain ⟨front, back, rfl, hfront, hback⟩ := h
  refine ⟨s ++ c :: front, back, by simp only [List.append_assoc, List.cons_append], ?_, hback⟩
  rw [getLast?_append_of_ne_nil s (List.cons_ne_nil c front),
    ← Option.or_none (o := List.getLast? _), getLast?_cons_or]
  cases hlast : front.getLast? with
  | none => exact hc
  | some d => rwa [hlast] at hfront

/-- Making lines one moves no end of a word. -/
theorem noWordChar_oneLine (neighbour : Option Char) :
    noWordChar (neighbour.map fun c => if c = '\n' || c = '\r' then ' ' else c) =
      noWordChar neighbour := by
  cases neighbour with
  | none => rfl
  | some c =>
    rw [Option.map_some]
    split
    · next hc =>
      have hblank : isBlank c = true := by
        rw [Bool.or_eq_true, decide_eq_true_eq, decide_eq_true_eq] at hc
        rcases hc with rfl | rfl <;> rfl
      rw [noWordChar, noWordChar, Option.any_some, Option.any_some, isWordChar_of_isBlank hblank,
        isWordChar_of_isBlank (by decide : isBlank ' ' = true)]
    · rfl

/-- Making lines one makes no word. -/
theorem HoldsWord.of_oneLine (hw : ' ' ∉ word) (h : HoldsWord word (oneLine s)) :
    HoldsWord word s := by
  obtain ⟨front, rest, he, hfront, hback⟩ := h
  obtain ⟨front, rest, rfl, rfl, hrest⟩ := List.map_eq_append_iff.1 he
  obtain ⟨kept, back, rfl, hkept, rfl⟩ := List.map_eq_append_iff.1 hrest
  have hword : kept = word := by
    rw [← hkept]
    refine ((List.map_congr_left fun c hc => ?_).trans (List.map_id kept)).symm
    split
    · next hn =>
      refine absurd ?_ hw
      rw [← hkept]
      exact List.mem_map.2 ⟨c, hc, if_pos hn⟩
    · rfl
  rw [List.getLast?_map, noWordChar_oneLine] at hfront
  rw [List.head?_map, noWordChar_oneLine] at hback
  exact ⟨front, back, by rw [hword], hfront, hback⟩

/-- Only whether a word can start counts of what stands in front. -/
theorem fromWord?_before {before' : Option Char} (h : noWordChar before = noWordChar before')
    (word s : List Char) : fromWord? word before s = fromWord? word before' s := by
  cases s with
  | nil => rfl
  | cons c s =>
    unfold fromWord? startsWithWord
    rw [h]

/-- **A stretch without the word is passed over**, up to a mark that belongs to no word. -/
theorem fromWord?_mark (hm : c ∉ word) (hw : word ≠ []) (hc : noWordChar (some c) = true)
    (h : fromWord? word before s = none) (t : List Char) :
    fromWord? word before (s ++ c :: t) = fromWord? word none t := by
  induction s generalizing before with
  | nil =>
    rw [List.nil_append, fromWord?, if_neg]
    · exact fromWord?_before (by rw [hc]; rfl) word t
    · rw [startsWithWord_iff]
      rintro ⟨-, back, he, -⟩
      cases word with
      | nil => exact hw rfl
      | cons d word =>
        obtain ⟨rfl, -⟩ := List.cons.inj he
        exact hm List.mem_cons_self
  | cons d s ih =>
    rw [fromWord?] at h
    split at h
    · cases h
    · next hstarts =>
      rw [List.cons_append, fromWord?, if_neg, ih h]
      rw [startsWithWord_iff] at hstarts ⊢
      rintro ⟨hbefore, back, he, hback⟩
      refine hstarts ⟨hbefore, ?_⟩
      rw [← List.cons_append] at he
      rcases List.append_eq_append_iff.1 he with ⟨k, hk, hrest⟩ | ⟨k, hk, hrest⟩
      · cases k with
        | nil => exact ⟨[], by rw [hk, List.append_nil, List.append_nil], rfl⟩
        | cons e k =>
          obtain ⟨rfl, -⟩ := List.cons.inj hrest
          rw [hk] at hm
          exact absurd (List.mem_append_right (d :: s) List.mem_cons_self) hm
      · refine ⟨k, hk, ?_⟩
        cases k with
        | nil => rfl
        | cons e k =>
          rw [hrest] at hback
          exact hback

/-! ## Statements -/

/-- Behind a closed statement the fragments of a text are its own. -/
theorem fragments_append (hs : s = [] ∨ s.getLast? = some ';') (t : List Char) :
    fragments (oneLine (s ++ t)) = fragments (oneLine s) ++ fragments (oneLine t) := by
  rcases hs with rfl | hs
  · rfl
  · obtain ⟨s, rfl⟩ := List.getLast?_eq_some_iff.1 hs
    rw [List.append_assoc, List.singleton_append, oneLine_append, oneLine_cons _ (by decide),
      oneLine_append, fragments, statements_append, List.filterMap_append]
    rfl

/-- Behind a closed statement a text is read for itself. -/
theorem variants_append (hs : s = [] ∨ s.getLast? = some ';') (t : List Char) :
    variants (s ++ t) = variants s ++ variants t := by
  rw [variants, fragments_append hs, List.filterMap_append]
  rfl

theorem variants_closed (hs : ';' ∉ s) (t : List Char) :
    variants (s ++ ';' :: t) = (statementVariant? s).toList ++ variants t := by
  have h : Yields [] (s ++ [';']) (statementVariant? s).toList [] := yields_closed hs
  have hs := h t
  rwa [List.append_assoc, List.singleton_append, ← variants_eq, ← variants_eq] at hs

theorem variants_open (hs : ';' ∉ s) : variants s = [] := by
  rw [variants_eq]
  exact variantsBehind_open hs

theorem toList_inj {α : Type} {x y : Option α} : x.toList = y.toList ↔ x = y := by
  cases x <;> cases y <;> simp

/-- A text has no semicolon or a first one. -/
theorem open_or_closed (s : List Char) :
    ';' ∉ s ∨ ∃ first rest, ';' ∉ first ∧ s = first ++ ';' :: rest := by
  by_cases h : ';' ∈ s
  · obtain ⟨first, rest, hs, hfirst⟩ := List.eq_append_cons_of_mem h
    exact .inr ⟨first, rest, hfirst, hs⟩
  · exact .inl h

/-! ## Redirections -/

/-- The statement ends in a redirection to the case. -/
def Redirects (statement : List Char) (typeName : String) : Prop :=
  caseName.accepts typeName.toList = true ∧
    ∃ r, RedirectionWritten typeName r ∧ '=' :: r <:+ oneLine statement

theorem silent_iff : Silent s ↔ ∀ typeName, ¬ Redirects s typeName := by
  constructor
  · rintro h typeName ⟨ht, r, hr, front, he⟩
    exact h front typeName r ht hr he.symm
  · intro h front typeName r ht hr he
    exact h typeName ⟨ht, r, hr, front, he.symm⟩

/-- A redirection is found where it stands, and nowhere else. -/
theorem redirects_iff {typeName : String} : Redirects s typeName ↔
    redirectedCase? (oneLine s ++ [';']) = some typeName.toList := by
  constructor
  · rintro ⟨ht, r, hr, front, hs⟩
    rw [← hs, List.append_assoc]
    exact redirectedCase?_append (caseBehind?_written ht hr) front
  · intro h
    obtain ⟨front, rest, hs, hrest⟩ := eq_of_redirectedCase? h
    obtain ⟨ht, r, hr, rfl⟩ := eq_of_caseBehind? hrest
    rw [String.ofList_toList] at hr
    rw [← List.cons_append, ← List.append_assoc] at hs
    exact ⟨ht, r, hr, front, (List.append_cancel_right hs).symm⟩

instance (s : List Char) (typeName : String) : Decidable (Redirects s typeName) :=
  decidable_of_iff _ redirects_iff.symm

theorem not_mem_redirection {typeName : String} (ht : caseName.accepts typeName.toList = true)
    {r : List Char} (hr : RedirectionWritten typeName r) (hc : c = '{' ∨ c = '}') :
    c ∉ '=' :: r := by
  intro hm
  rcases List.mem_cons.1 hm with he | hm
  · rcases hc with rfl | rfl <;> cases he
  · have hmem := mem_redirectionWritten (identifier_of_caseName ht) hr hm
    rcases hc with rfl | rfl <;> exact absurd hmem (by decide)

/-- **A redirection stands behind every brace.** -/
theorem redirects_behind_iff (hc : c = '{' ∨ c = '}') (s t : List Char) {typeName : String} :
    Redirects (s ++ c :: t) typeName ↔ Redirects t typeName := by
  have hline : oneLine (s ++ c :: t) = oneLine s ++ c :: oneLine t := by
    rw [oneLine_append, oneLine_cons _ (by rcases hc with rfl | rfl <;> decide)]
  unfold Redirects
  rw [hline]
  constructor
  · rintro ⟨ht, r, hr, hend⟩
    have hm := not_mem_redirection ht hr hc
    refine ⟨ht, r, hr, ?_⟩
    rcases List.suffix_or_suffix_of_suffix hend (List.suffix_append (oneLine s) _) with h | h
    · rcases List.suffix_cons_iff.1 h with h | h
      · rw [h] at hm
        exact absurd List.mem_cons_self hm
      · exact h
    · exact absurd (h.subset List.mem_cons_self) hm
  · rintro ⟨ht, r, hr, hend⟩
    exact ⟨ht, r, hr, (hend.trans (List.suffix_cons c _)).trans (List.suffix_append (oneLine s) _)⟩

/-! ## Text without factories -/

/-- No brace and no semicolon belongs to a word. -/
theorem noWordChar_mark (hc : c = '}' ∨ c = ';') : noWordChar (some c) = true := by
  rcases hc with rfl | rfl <;> decide +kernel

theorem fragment?_wordless (h : ¬ HoldsWord "factory".toList s) : fragment? (oneLine s) = none := by
  rw [fragment?, Option.map_eq_none_iff, fromWord?_eq_none_iff_not_holdsWord (by decide)]
  exact fun hs => h (hs.of_oneLine (by decide))

/-- **A text without the word** `factory` yields nothing up to the brace behind it. -/
theorem variants_wordless {body : List Char} (h : ¬ HoldsWord "factory".toList body)
    (t : List Char) : variants (body ++ '}' :: t) = variants t := by
  rcases open_or_closed body with hs | ⟨first, rest, hfirst, hbody⟩
  · rcases open_or_closed t with ht | ⟨first, rest, hfirst, rfl⟩
    · rw [variants_open ht, variants_open]
      simp [hs, ht]
    · have hline : oneLine (body ++ '}' :: first) = oneLine body ++ '}' :: oneLine first := by
        rw [oneLine_append, oneLine_cons _ (by decide)]
      have hsame : statementVariant? (body ++ '}' :: first) = statementVariant? first := by
        have hnone := fragment?_wordless h
        rw [fragment?, Option.map_eq_none_iff] at hnone
        rw [statementVariant?, statementVariant?, fragment?, fragment?, hline,
          fromWord?_mark (by decide) (by decide) (noWordChar_mark (.inl rfl)) hnone]
      have hclosed : ';' ∉ body ++ '}' :: first := by simp [hs, hfirst]
      rw [variants_closed hfirst, ← List.cons_append, ← List.append_assoc, variants_closed hclosed,
        hsame]
  · rw [hbody] at h
    have hno : ¬ HoldsWord "factory".toList first :=
      fun hw => h (hw.append (noWordChar_mark (.inr rfl)) rest)
    have hrest : ¬ HoldsWord "factory".toList rest :=
      fun hw => h (hw.behind (noWordChar_mark (.inr rfl)) first)
    have hnone : statementVariant? first = none := by
      rw [statementVariant?, fragment?_wordless hno]
      rfl
    rw [hbody, List.append_assoc, List.cons_append, variants_closed hfirst, hnone,
      variants_wordless hrest]
    rfl
  termination_by body.length
  decreasing_by
    rw [hbody, List.length_append, List.length_cons]
    omega

/-! ## A factory with a body -/

/-- The head of a factory with a body, up to its opening brace. -/
def blockHead (union label : String) (params : List Char) : List Char :=
  "factory ".toList ++ (union.toList ++ '.' :: (label.toList ++ '(' :: (params ++ ") \x7b".toList)))

/-- A factory with a body in braces. -/
def blockFactory (union label : String) (params body : List Char) : List Char :=
  blockHead union label params ++ (body ++ ['}'])

variable {union label : String} {params : List Char}

theorem redirects_blockHead_iff {typeName : String} :
    Redirects (blockHead union label params ++ s) typeName ↔ Redirects s typeName := by
  have hhead : blockHead union label params ++ s =
      ("factory ".toList ++ (union.toList ++ '.' :: (label.toList ++ '(' :: (params ++
        ") ".toList)))) ++ '{' :: s := by
    unfold blockHead
    simp only [List.append_assoc, List.cons_append]
    rfl
  rw [hhead, redirects_behind_iff (.inl rfl)]

/-- What does not end in a redirection is no variant behind a head with a body either. -/
theorem statementVariant?_blockHead_of_silent (h : Silent s) :
    statementVariant? (blockHead union label params ++ s) = none := by
  refine statementVariant?_of_silent (silent_iff.2 fun typeName hr => ?_)
  exact silent_iff.1 h typeName (redirects_blockHead_iff.1 hr)

section

variable (hu : identifier.accepts union.toList = true) (hl : identifier.accepts label.toList = true)

include hu hl in
theorem oneLine_blockHead (params : List Char) : ∃ head, HeadWritten union label head ∧
    oneLine (blockHead union label params) =
      head ++ '(' :: (oneLine params ++ ") \x7b".toList) := by
  refine ⟨_, @HeadWritten.mk union label " ".toList [] [] [] (by decide) isGap_nil isGap_nil
    isGap_nil, ?_⟩
  unfold blockHead
  rw [oneLine_append, oneLine_append, oneLine_cons _ (by decide), oneLine_append,
    oneLine_cons _ (by decide), oneLine_append, oneLine_of_accepts hu, oneLine_of_accepts hl,
    List.append_nil]
  simp only [List.append_assoc, List.cons_append]
  rfl

variable (hp : Nested [Bracket.round] params)

include hu hl hp in
/-- **A factory with a body is read as a redirecting one** when its statement ends like one. -/
theorem statementVariant?_blockHead {typeName : String} (h : Redirects s typeName) :
    statementVariant? (blockHead union label params ++ s) =
      some ⟨typeName, label, parameters (oneLine params)⟩ := by
  obtain ⟨ht, r, hr, front, hs⟩ := h
  obtain ⟨head, hhead, hline⟩ := oneLine_blockHead hu hl params
  have hnested : Nested [Bracket.round] (oneLine params) := by
    rw [Nested, Output.due?_oneLine]
    exact hp
  have hempty : Opening [] := ⟨trivial, rfl⟩
  have hfragment := fragment?_headWritten hempty hhead
    ('(' :: (oneLine params ++ ") \x7b".toList ++ front ++ '=' :: r))
  have hvariant := variant?_ends hu hl ht hhead hr (oneLine params ++ ") \x7b".toList ++ front)
  have hclosing := beforeClosing?_of_nested hnested
    (" \x7b".toList ++ (front ++ '=' :: (r ++ [';'])))
  have hparams : oneLine params ++ ") \x7b".toList ++ front ++ '=' :: (r ++ [';']) =
      oneLine params ++ ')' :: (" \x7b".toList ++ (front ++ '=' :: (r ++ [';']))) := by
    simp only [List.append_assoc]
    rfl
  have hstatement : oneLine (blockHead union label params ++ s) =
      head ++ '(' :: (oneLine params ++ ") \x7b".toList ++ front ++ '=' :: r) := by
    rw [oneLine_append, hline, ← hs]
    simp only [List.append_assoc, List.cons_append]
  rw [hparams, hclosing] at hvariant
  rw [statementVariant?, hstatement]
  rw [List.nil_append] at hfragment
  rw [hfragment]
  exact hvariant

end

/-! ## What a factory with a body does -/

/-- A body with a statement ends the factory there, and what follows is read as if nothing stood in
front of it. -/
theorem variants_blockFactory_closed (hp : ';' ∉ blockHead union label params) (hs : ';' ∉ s)
    {rest : List Char} (hrest : ¬ HoldsWord "factory".toList rest) (b : List Char) :
    variants (blockFactory union label params (s ++ ';' :: rest) ++ b) =
      (statementVariant? (blockHead union label params ++ s)).toList ++ variants b := by
  have hclosed : ';' ∉ blockHead union label params ++ s := by
    rw [List.mem_append, not_or]
    exact ⟨hp, hs⟩
  have hsplit : blockFactory union label params (s ++ ';' :: rest) ++ b =
      (blockHead union label params ++ s) ++ ';' :: (rest ++ '}' :: b) := by
    unfold blockFactory
    simp only [List.append_assoc, List.cons_append, List.nil_append]
  rw [hsplit, variants_closed hclosed, variants_wordless hrest]

/-- A body without a statement takes the text up to the next semicolon for the end of the
factory. -/
theorem variants_blockFactory_open (hp : ';' ∉ blockHead union label params) {body : List Char}
    (hb : ';' ∉ body) (hs : ';' ∉ s) (b : List Char) :
    variants (blockFactory union label params body ++ (s ++ ';' :: b)) =
      (statementVariant? (blockHead union label params ++ (body ++ '}' :: s))).toList ++
        variants b := by
  have hclosed : ';' ∉ blockHead union label params ++ (body ++ '}' :: s) := by
    rw [List.mem_append, List.mem_append, List.mem_cons, not_or, not_or, not_or]
    exact ⟨hp, hb, by decide, hs⟩
  have hsplit : blockFactory union label params body ++ (s ++ ';' :: b) =
      (blockHead union label params ++ (body ++ '}' :: s)) ++ ';' :: b := by
    unfold blockFactory
    simp only [List.append_assoc, List.cons_append, List.nil_append]
  rw [hsplit, variants_closed hclosed]

/-- The statement of a factory with a body is no variant exactly when it does not end like one. -/
theorem statementVariant?_blockHead_eq_none_iff (hu : identifier.accepts union.toList = true)
    (hl : identifier.accepts label.toList = true) (hp : Nested [Bracket.round] params) :
    statementVariant? (blockHead union label params ++ s) = none ↔
      ∀ typeName, ¬ Redirects s typeName := by
  constructor
  · intro h typeName hr
    rw [statementVariant?_blockHead hu hl hp hr] at h
    cases h
  · intro h
    exact statementVariant?_blockHead_of_silent (silent_iff.2 h)

/-- A factory with a body takes nothing from the factory behind it exactly when that one redirects
nowhere or reads the same. -/
theorem statementVariant?_blockHead_eq_iff (hu : identifier.accepts union.toList = true)
    (hl : identifier.accepts label.toList = true) (hp : Nested [Bracket.round] params)
    (body : List Char) :
    statementVariant? (blockHead union label params ++ (body ++ '}' :: s)) = statementVariant? s ↔
      ∀ typeName, Redirects s typeName →
        statementVariant? s = some ⟨typeName, label, parameters (oneLine params)⟩ := by
  constructor
  · intro h typeName hr
    rw [← h]
    exact statementVariant?_blockHead hu hl hp ((redirects_behind_iff (.inr rfl) body s).2 hr)
  · intro h
    by_cases hr : ∃ typeName, Redirects s typeName
    · obtain ⟨typeName, hr⟩ := hr
      rw [h typeName hr]
      exact statementVariant?_blockHead hu hl hp ((redirects_behind_iff (.inr rfl) body s).2 hr)
    · have hsilent : Silent s := silent_iff.2 fun typeName hs => hr ⟨typeName, hs⟩
      rw [statementVariant?_of_silent hsilent, statementVariant?_blockHead_of_silent]
      exact silent_iff.2 fun typeName hs =>
        hr ⟨typeName, (redirects_behind_iff (.inr rfl) body s).1 hs⟩

/-- **Exactly when a factory with a body does not count**: the first statement of the body does not
end in a redirection; and if the body has no statement, the first statement behind it ends in one
only as a factory that reads the same. -/
theorem variants_blockFactory_iff (hu : identifier.accepts union.toList = true)
    (hl : identifier.accepts label.toList = true) (hp : Nested [Bracket.round] params)
    (hm : ';' ∉ params) {body : List Char} (hb : ¬ HoldsWord "factory".toList body)
    {a : List Char} (ha : a = [] ∨ a.getLast? = some ';') (b : List Char) :
    variants (a ++ (blockFactory union label params body ++ b)) = variants (a ++ b) ↔
      (∀ first ∈ (statements body).head?, ∀ typeName, ¬ Redirects first typeName) ∧
        (';' ∉ body → ∀ first ∈ (statements b).head?, ∀ typeName, Redirects first typeName →
          statementVariant? first = some ⟨typeName, label, parameters (oneLine params)⟩) := by
  have hhead : ';' ∉ blockHead union label params := by
    unfold blockHead
    simp only [List.mem_append, List.mem_cons, not_or]
    exact ⟨by decide, fun h => (plain_of_accepts hu _ h).1 rfl, by decide,
      fun h => (plain_of_accepts hl _ h).1 rfl, by decide, hm, by decide⟩
  rw [variants_append ha, variants_append ha, List.append_right_inj]
  rcases open_or_closed body with hbody | ⟨first, rest, hfirst, rfl⟩
  · rw [statements_open hbody]
    rcases open_or_closed b with hopen | ⟨first, b, hfirst, rfl⟩
    · -- nothing is closed behind `a` at all
      have hall : ';' ∉ blockFactory union label params body ++ b := by
        unfold blockFactory
        simp [hhead, hbody, hopen]
      rw [variants_open hall, variants_open hopen, statements_open hopen]
      simp
    · rw [variants_blockFactory_open hhead hbody hfirst, variants_closed hfirst,
        List.append_left_inj, statements_closed hfirst]
      have hsame := statementVariant?_blockHead_eq_iff hu hl hp body (s := first)
      constructor
      · intro h
        refine ⟨fun _ hf => absurd hf (Option.not_mem_none _), fun _ statement hf => ?_⟩
        obtain rfl : first = statement := Option.some.inj hf
        exact hsame.1 (toList_inj.1 h)
      · rintro ⟨-, h⟩
        exact toList_inj.2 (hsame.2 (h hbody first rfl))
  · have hrest : ¬ HoldsWord "factory".toList rest :=
      fun hw => hb (hw.behind (noWordChar_mark (.inr rfl)) first)
    have hnone := statementVariant?_blockHead_eq_none_iff hu hl hp (s := first)
    rw [variants_blockFactory_closed hhead hfirst hrest, statements_closed hfirst,
      List.append_left_eq_self, Option.toList_eq_nil_iff, hnone]
    constructor
    · intro h
      refine ⟨fun statement hf => ?_, fun hbody => ?_⟩
      · obtain rfl : first = statement := Option.some.inj hf
        exact h
      · exact absurd (List.mem_append_right first List.mem_cons_self) hbody
    · rintro ⟨h, -⟩
      exact h first rfl

/-- A body with two statements, of which neither redirects, between two factories. -/
theorem variants_blockFactory_iff_two_statements :
    variants ("class U \x7b factory U.k() = A;".toList ++
        (blockFactory "U" "l" "(int, int) p".toList
          " if (p == (1, 1)) \x7b log(p); \x7d return U.k(); ".toList ++
            " factory U.m() = C; \x7d".toList)) =
      variants ("class U \x7b factory U.k() = A;".toList ++ " factory U.m() = C; \x7d".toList) ∧
    variants ("class U \x7b factory U.k() = A;".toList ++ " factory U.m() = C; \x7d".toList) =
      [⟨"A", "k", []⟩, ⟨"C", "m", []⟩] := by
  refine ⟨(variants_blockFactory_iff (by decide) (by decide) (by decide) (by decide)
    (by decide +kernel) (.inr rfl) _).2 ⟨fun first hf typeName hr => ?_, fun hb => ?_⟩,
    by decide +kernel⟩
  · obtain rfl : " if (p == (1, 1)) \x7b log(p)".toList = first := Option.some.inj hf
    have hnone : redirectedCase? (oneLine " if (p == (1, 1)) \x7b log(p)".toList ++ [';']) =
        none := by
      decide +kernel
    rw [redirects_iff, hnone] at hr
    cases hr
  · exact absurd hb (by decide)

/-- **A body without statements hands its label to the factory behind it**: the case of `m` is read
as the case of `l`. -/
theorem variants_blockFactory_empty :
    "class U \x7b const U();".toList.getLast? = some ';' ∧ Nested [Bracket.round] [] ∧
      Nested Bracket.all [] ∧ ¬ HoldsWord "factory".toList [] ∧
      variants ("class U \x7b const U();".toList ++ (blockFactory "U" "l" [] [] ++
        " factory U.m() = C; \x7d".toList)) = [⟨"C", "l", []⟩] ∧
      variants ("class U \x7b const U();".toList ++ " factory U.m() = C; \x7d".toList) =
        [⟨"C", "m", []⟩] := by
  decide +kernel

end DartUnion.Source
