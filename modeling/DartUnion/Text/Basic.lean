/-!
# Blanks, and texts cut at a mark

Text is scanned as a list of characters throughout the library.

* A property of characters that follows no simple rule is a table of `Ranges` of code points. A
  character is blank (`isBlank`) when it has the property White_Space, which is `\s` in a pattern: the
  ASCII separators, NEL, the no-break space, the Ogham space and the spaces of general punctuation.
* `allBlank`, `trimStart`, `trimEnd` and `trim` look at the blanks of a text.
* `endedBy` cuts a text at every occurrence of a mark. Statements end at semicolons and lines at line
  ends; what stands behind the last mark has not ended and is not listed.

Results:
* `trimStart_eq_nil_iff`, `trimEnd_eq_nil_iff`: exactly the blank texts are trimmed away.
* `head?_trimStart`, `getLast?_trimEnd`: what is left has no blank at that end.
* `endedBy_closed`, `endedBy_open`: the first part reaches to the first mark, and without a mark there
  is none.
* `endedBy_append`: a mark keeps what stands before it apart from what stands behind it.
* `endedBy_map`: changing characters other than the mark changes each part by itself.
* `eq_of_mem_endedBy`: what a part was.
-/

namespace DartUnion.Text

/-- A set of code points as a list of closed ranges, in increasing order. -/
abbrev Ranges := List (Nat × Nat)

/-- The character lies in one of the ranges. -/
def Ranges.contains (rs : Ranges) (c : Char) : Bool :=
  rs.any fun r => r.1 ≤ c.toNat && c.toNat ≤ r.2

/-- Membership in a table, read as a statement about its ranges. -/
theorem Ranges.contains_iff {rs : Ranges} {c : Char} :
    rs.contains c = true ↔ ∃ r ∈ rs, r.1 ≤ c.toNat ∧ c.toNat ≤ r.2 := by
  simp [Ranges.contains]

/-! ## Blanks -/

/-- The characters with the property White_Space. -/
def isBlank (c : Char) : Bool :=
  let n := c.toNat
  (0x09 ≤ n && n ≤ 0x0D) || n == 0x20 || n == 0x85 || n == 0xA0 || n == 0x1680 ||
    (0x2000 ≤ n && n ≤ 0x200A) || n == 0x2028 || n == 0x2029 || n == 0x202F || n == 0x205F ||
    n == 0x3000

/-- Every character is blank; the empty text counts. -/
def allBlank (s : List Char) : Bool := s.all isBlank

/-- The text from its first character that is not blank. -/
def trimStart (s : List Char) : List Char := s.dropWhile isBlank

/-- The text up to its last character that is not blank. -/
def trimEnd (s : List Char) : List Char := (s.reverse.dropWhile isBlank).reverse

/-- The text without the blanks at both ends. -/
def trim (s : List Char) : List Char := trimEnd (trimStart s)

/-- Exactly the blank texts are trimmed away at the start. -/
theorem trimStart_eq_nil_iff {s : List Char} : trimStart s = [] ↔ allBlank s = true := by
  unfold trimStart allBlank
  induction s with
  | nil => exact iff_of_true rfl rfl
  | cons c s ih =>
    rw [List.dropWhile_cons, List.all_cons]
    split
    · next hc => rw [ih, hc, Bool.true_and]
    · next hc =>
      rw [Bool.not_eq_true] at hc
      exact iff_of_false (List.cons_ne_nil c s) (by rw [hc]; exact Bool.false_ne_true)

/-- Exactly the blank texts are trimmed away at the end. -/
theorem trimEnd_eq_nil_iff {s : List Char} : trimEnd s = [] ↔ allBlank s = true := by
  rw [trimEnd, List.reverse_eq_nil_iff, ← trimStart, trimStart_eq_nil_iff]
  simp [allBlank]

/-- Trimming at the start leaves no blank in front. -/
theorem head?_trimStart {s : List Char} {c : Char} (h : (trimStart s).head? = some c) :
    isBlank c = false := by
  have := List.head?_dropWhile_not isBlank s
  simp only [trimStart] at h
  simp_all

/-- Trimming at the end leaves no blank there. -/
theorem getLast?_trimEnd {s : List Char} {c : Char} (h : (trimEnd s).getLast? = some c) :
    isBlank c = false := by
  rw [trimEnd, List.getLast?_reverse] at h
  exact head?_trimStart (s := s.reverse) h

/-- A text without a blank in front is left alone by trimming there. -/
theorem trimStart_of_head {c : Char} {s : List Char} (h : isBlank c = false) :
    trimStart (c :: s) = c :: s := by
  simp [trimStart, h]

/-! ## Texts cut at a mark -/

/-- The texts in front of each mark. -/
def endedBy (mark : Char) : List Char → List (List Char)
  | [] => []
  | c :: s =>
    if c = mark then [] :: endedBy mark s
    else match endedBy mark s with
      | [] => []
      | t :: ts => (c :: t) :: ts

section

variable {mark : Char}

/-- The first part ends at the first mark. -/
theorem endedBy_closed {t : List Char} (h : mark ∉ t) (s : List Char) :
    endedBy mark (t ++ mark :: s) = t :: endedBy mark s := by
  induction t with
  | nil => rw [List.nil_append, endedBy, if_pos rfl]
  | cons c t ih =>
    obtain ⟨hc, ht⟩ := not_or.1 (mt List.mem_cons.2 h)
    rw [List.cons_append, endedBy, if_neg (Ne.symm hc), ih ht]

/-- Without a mark nothing ends. -/
theorem endedBy_open {t : List Char} (h : mark ∉ t) : endedBy mark t = [] := by
  induction t with
  | nil => rfl
  | cons c t ih =>
    obtain ⟨hc, ht⟩ := not_or.1 (mt List.mem_cons.2 h)
    rw [endedBy, if_neg (Ne.symm hc), ih ht]

/-- A part ends at each mark, so there is one when there is a mark. -/
theorem endedBy_ne_nil {s : List Char} (h : mark ∈ s) : endedBy mark s ≠ [] := by
  obtain ⟨t, rest, rfl, ht⟩ := List.eq_append_cons_of_mem h
  rw [endedBy_closed ht]
  exact List.cons_ne_nil t _

/-- **A mark keeps apart** what stands before it and what stands behind it. -/
theorem endedBy_append (a b : List Char) :
    endedBy mark (a ++ mark :: b) = endedBy mark (a ++ [mark]) ++ endedBy mark b := by
  induction a with
  | nil => rw [List.nil_append, List.nil_append, endedBy, endedBy, if_pos rfl, if_pos rfl]; rfl
  | cons c a ih =>
    rw [List.cons_append, List.cons_append, endedBy, endedBy, ih]
    split
    · rfl
    · cases h : endedBy mark (a ++ [mark]) with
      | nil => exact absurd h (endedBy_ne_nil (List.mem_append_right a List.mem_cons_self))
      | cons t ts => rfl

/-- Each part is changed by itself when no mark is made and none gets lost. -/
theorem endedBy_map {f : Char → Char} (hf : ∀ c, f c = mark ↔ c = mark) (s : List Char) :
    endedBy mark (s.map f) = (endedBy mark s).map (List.map f) := by
  induction s with
  | nil => rfl
  | cons c s ih =>
    rw [List.map_cons, endedBy, endedBy, ih]
    by_cases hc : c = mark
    · rw [if_pos hc, if_pos ((hf c).2 hc)]
      rfl
    · rw [if_neg hc, if_neg (mt (hf c).1 hc)]
      cases endedBy mark s <;> rfl

/-- What the first part was: the text in front of the first mark. The others are the parts of the
text behind that mark. -/
theorem eq_of_endedBy_cons {s t : List Char} {ts : List (List Char)}
    (h : endedBy mark s = t :: ts) :
    mark ∉ t ∧ ∃ rest, s = t ++ mark :: rest ∧ ts = endedBy mark rest := by
  by_cases hmark : mark ∈ s
  · obtain ⟨u, rest, rfl, hu⟩ := List.eq_append_cons_of_mem hmark
    rw [endedBy_closed hu] at h
    obtain ⟨rfl, rfl⟩ := List.cons.inj h
    exact ⟨hu, rest, rfl, rfl⟩
  · rw [endedBy_open hmark] at h
    cases h

/-- **A part stands in the text with a mark behind it**, and there is no mark in it. -/
theorem eq_of_mem_endedBy {s t : List Char} (h : t ∈ endedBy mark s) :
    mark ∉ t ∧ ∃ front rest, s = front ++ (t ++ mark :: rest) := by
  generalize hparts : endedBy mark s = parts at h
  induction parts generalizing s with
  | nil => cases h
  | cons u us ih =>
    obtain ⟨hu, rest, rfl, rfl⟩ := eq_of_endedBy_cons hparts
    rcases List.mem_cons.1 h with rfl | h
    · exact ⟨hu, [], rest, rfl⟩
    · obtain ⟨ht, front, behind, rfl⟩ := ih rfl h
      refine ⟨ht, u ++ mark :: front, behind, ?_⟩
      rw [List.append_assoc, List.cons_append]

end

end DartUnion.Text
