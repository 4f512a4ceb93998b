import DartUnion.Proofs.BlockBody

/-!
# Factories searched from left to right

A text is cut at its semicolons, and in each statement the first whole word `factory` starts the
fragment. Said without statements, this is a search from left to right: where a fragment starts it is
taken up to its semicolon, and the search goes on behind it; everywhere else it goes on with the next
character (`Searched`). Since a fragment ends with the first semicolon behind its word, no fragment
reaches over a semicolon that it does not end with, so the search starts afresh behind each.

Results:
* `Searched.unique`: a search has one outcome.
* `searched_statement`: up to the next semicolon a search finds the fragment of that statement.
* `searched_iff`: **a search finds the fragments** of a text, and nothing else.
* `variants_behind_semicolon`: **what is found behind a semicolon** depends on nothing in front of it.
-/

namespace DartUnion.Source

open DartUnion.Text

/-- A fragment behind the character `before`: the whole word `factory` and what follows it, up to the
first semicolon. -/
def IsFragment (before : Option Char) (m : List Char) : Prop :=
  ∃ body, m = "factory".toList ++ body ++ [';'] ∧ ';' ∉ body ∧ noWordChar before = true ∧
    noWordChar (body ++ [';']).head? = true

/-- What a search from left to right finds in a text behind the character `before`. -/
inductive Searched : Option Char → List Char → List (List Char) → Prop
  | done {before : Option Char} : Searched before [] []
  | found {before : Option Char} {m rest : List Char} {ms : List (List Char)} :
      IsFragment before m → Searched (some ';') rest ms → Searched before (m ++ rest) (m :: ms)
  | passed {before : Option Char} {c : Char} {s : List Char} {ms : List (List Char)} :
      (∀ m rest, c :: s = m ++ rest → ¬ IsFragment before m) → Searched (some c) s ms →
      Searched before (c :: s) ms

/-! ## One outcome -/

/-- A text is cut at its first semicolon in one way. -/
theorem eq_of_first_semicolon {s t u v : List Char} (hs : ';' ∉ s) (ht : ';' ∉ t)
    (h : s ++ ';' :: u = t ++ ';' :: v) : s = t ∧ u = v := by
  have hstatements := congrArg statements h
  rw [statements_closed hs, statements_closed ht] at hstatements
  obtain rfl : s = t := (List.cons.inj hstatements).1
  exact ⟨rfl, (List.cons.inj (List.append_cancel_left h)).2⟩

theorem IsFragment.eq_append {before : Option Char} {m : List Char} (h : IsFragment before m) :
    ∃ s, m = s ++ [';'] ∧ ';' ∉ s ∧ startsWithWord "factory".toList before s = true := by
  obtain ⟨body, rfl, hbody, hbefore, hend⟩ := h
  refine ⟨"factory".toList ++ body, rfl, ?_, startsWithWord_iff.2 ⟨hbefore, body, rfl, ?_⟩⟩
  · rw [List.mem_append, not_or]
    exact ⟨by decide, hbody⟩
  · cases body with
    | nil => rfl
    | cons c body => exact hend

theorem isFragment_of_startsWithWord {before : Option Char} {s : List Char} (hs : ';' ∉ s)
    (h : startsWithWord "factory".toList before s = true) : IsFragment before (s ++ [';']) := by
  obtain ⟨hbefore, body, rfl, hend⟩ := startsWithWord_iff.1 h
  refine ⟨body, rfl, fun hm => hs (List.mem_append_right _ hm), hbefore, ?_⟩
  cases body with
  | nil => exact noWordChar_mark (.inr rfl)
  | cons c body => exact hend

/-- **A search has one outcome.** -/
theorem Searched.unique {before : Option Char} {s : List Char} {ms ns : List (List Char)}
    (hm : Searched before s ms) (hn : Searched before s ns) : ms = ns := by
  induction hm generalizing ns with
  | done =>
    generalize he : ([] : List Char) = s at hn
    cases hn with
    | done => rfl
    | found hfragment =>
      obtain ⟨body, rfl, -⟩ := hfragment
      cases he
    | passed => cases he
  | @found before m rest ms hm _ ih =>
    generalize he : m ++ rest = s at hn
    cases hn with
    | done =>
      obtain ⟨body, rfl, -⟩ := hm
      cases he
    | @found _ m' rest' ns hn hrest =>
      obtain ⟨u, rfl, hu, -⟩ := hm.eq_append
      obtain ⟨v, rfl, hv, -⟩ := hn.eq_append
      rw [List.append_assoc, List.append_assoc] at he
      obtain ⟨rfl, rfl⟩ := eq_of_first_semicolon hu hv he
      rw [ih hrest]
    | passed hnone _ => exact absurd hm (hnone m rest he.symm)
  | @passed before c s ms hnone _ ih =>
    generalize he : c :: s = t at hn
    cases hn with
    | done => cases he
    | found hn _ => exact absurd hn (hnone _ _ he)
    | passed _ hrest =>
      obtain ⟨rfl, rfl⟩ := List.cons.inj he
      exact ih hrest

/-! ## Statement by statement -/

/-- A text without semicolons is passed over. -/
theorem searched_open {s : List Char} (hs : ';' ∉ s) (before : Option Char) :
    Searched before s [] := by
  induction s generalizing before with
  | nil => exact .done
  | cons c s ih =>
    refine .passed ?_ (ih (fun hm => hs (List.mem_cons_of_mem c hm)) (some c))
    rintro m rest he hm
    obtain ⟨t, rfl, -⟩ := hm.eq_append
    rw [he] at hs
    simp at hs

/-- **Up to the next semicolon** a search finds the fragment of that statement, if it has one. -/
theorem searched_statement {s : List Char} (hs : ';' ∉ s) {rest : List Char} {ms : List (List Char)}
    (hrest : Searched (some ';') rest ms) (before : Option Char) :
    Searched before (s ++ ';' :: rest)
      (((fromWord? "factory".toList before s).map (· ++ [';'])).toList ++ ms) := by
  induction s generalizing before with
  | nil =>
    refine .passed ?_ hrest
    rintro m t he ⟨body, rfl, -⟩
    cases he
  | cons c s ih =>
    rw [fromWord?]
    split
    · next hstarts =>
      have hfragment := isFragment_of_startsWithWord hs hstarts
      have := Searched.found hfragment hrest
      rwa [List.append_assoc] at this
    · next hstarts =>
      refine .passed ?_ (ih (fun hm => hs (List.mem_cons_of_mem c hm)) (some c))
      rintro m t he hm
      obtain ⟨u, rfl, hu, hword⟩ := hm.eq_append
      have he' : (c :: s) ++ ';' :: rest = u ++ ';' :: t := by simpa using he
      rw [(eq_of_first_semicolon hs hu he').1] at hstarts
      exact hstarts hword

/-- The fragments of a text are what a search finds where a word can start. -/
theorem searched_fragments (s : List Char) {before : Option Char} (hb : noWordChar before = true) :
    Searched before s (fragments s) := by
  rcases open_or_closed s with hs | ⟨first, rest, hfirst, hsplit⟩
  · rw [fragments, statements_open hs]
    exact searched_open hs before
  · have hrest := searched_fragments rest (noWordChar_mark (.inr rfl))
    have hsearched := searched_statement hfirst hrest before
    have hstart : noWordChar before = noWordChar none := hb
    rw [fromWord?_before hstart] at hsearched
    have hfragments : fragments (first ++ ';' :: rest) =
        (fragment? first).toList ++ fragments rest := by
      rw [fragments, statements_closed hfirst, List.filterMap_cons]
      cases fragment? first <;> rfl
    rw [hsplit, hfragments]
    exact hsearched
termination_by s.length
decreasing_by rw [hsplit, List.length_append, List.length_cons]; omega

/-- **A search finds the fragments of a text**, and nothing else. -/
theorem searched_iff {s : List Char} {ms : List (List Char)} :
    Searched none s ms ↔ ms = fragments s := by
  have hfragments : Searched none s (fragments s) := searched_fragments s rfl
  refine ⟨fun h => h.unique hfragments, ?_⟩
  rintro rfl
  exact hfragments

/-! ## Behind a semicolon -/

/-- **What is found behind a semicolon** depends on nothing in front of it: the search through both
texts finds what it finds in the one and then what it finds in the other, and so do the variants. -/
theorem variants_behind_semicolon {a : List Char} (ha : a = [] ∨ a.getLast? = some ';')
    (b : List Char) :
    variants (a ++ b) = variants a ++ variants b ∧
      ∃ ms ns, Searched none (oneLine a) ms ∧ Searched none (oneLine b) ns ∧
        (∀ found, Searched none (oneLine (a ++ b)) found ↔ found = ms ++ ns) ∧
        variants a = ms.filterMap variant? ∧ variants b = ns.filterMap variant? := by
  refine ⟨variants_append ha b, fragments (oneLine a), fragments (oneLine b), searched_iff.2 rfl,
    searched_iff.2 rfl, fun found => ?_, rfl, rfl⟩
  rw [searched_iff, fragments_append ha]

/-- A factory that names no label and a text that is none are lost in front of a variant. -/
theorem variants_behind_semicolon_dropped :
    "factory U() = K; my factory;".toList.getLast? = some ';' ∧
      variants ("factory U() = K; my factory;".toList ++ "factory U.l() = M;".toList) =
        [{ typeName := "M", label := "l", parameters := [] }] :=
  ⟨by decide, (variants_behind_semicolon (.inr (by decide)) _).1.trans (by decide +kernel)⟩

end DartUnion.Source
