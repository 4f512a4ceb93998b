/-!
# Patterns of names

A pattern is text in which `?` stands for any character, `*` for any text, `[...]` for a character of
a class and `[!...]` for one outside it. A class lists characters and closed ranges such as `a-z`; its
first character belongs to it even when that is a closing bracket. `**` is only allowed as a whole
segment of a path, where it stands for any number of directories.

Nothing escapes a special character but a class of its own: `[[]` is an opening bracket.

* `Pattern.ofText` reads a pattern, or says at which character it goes wrong.
* `Pattern.accepts` tests a name.
-/

namespace DartUnion.Files

/-- A part of a pattern. -/
inductive Token where
  | char (c : Char)
  | anyChar
  | anyText
  /-- Any number of directories. -/
  | anyDirectories
  /-- A character in one of the ranges. -/
  | oneOf (ranges : List (Char × Char))
  /-- A character in none of the ranges. -/
  | noneOf (ranges : List (Char × Char))
  deriving Repr, DecidableEq

/-- A pattern, read. -/
abbrev Pattern := List Token

/-- What is wrong with a pattern. -/
inductive PatternError where
  | tooManyStars
  | partOfSegment
  | badClass
  deriving Repr, DecidableEq

/-- What is wrong with a pattern and at which character, the first one being number 0. -/
structure PatternFault where
  position : Nat
  error : PatternError
  deriving Repr, DecidableEq

/-- The wording of an error. -/
def PatternError.message : PatternError → String
  | .tooManyStars => "wildcards are either regular `*` or recursive `**`"
  | .partOfSegment => "recursive wildcards must form a single path component"
  | .badClass => "invalid range pattern"

/-- The wording of a fault. -/
def PatternFault.message (f : PatternFault) : String :=
  "Pattern syntax error near position " ++ toString f.position ++ ": " ++ f.error.message

namespace Pattern

/-- The characters and ranges that a class lists. -/
def ranges : List Char → List (Char × Char)
  | [] => []
  | a :: '-' :: b :: s => (a, b) :: ranges s
  | a :: s => (a, a) :: ranges s

/-- The text up to the next closing bracket, and the text behind it. -/
def toBracket? : List Char → Option (List Char × List Char)
  | [] => none
  | ']' :: s => some ([], s)
  | c :: s => (toBracket? s).map fun found => (c :: found.1, found.2)

/-- Behind the bracket there is less than before. -/
theorem length_of_toBracket? {s : List Char} {found : List Char × List Char}
    (h : toBracket? s = some found) : found.2.length < s.length := by
  fun_induction toBracket? s generalizing found with
  | case1 => simp at h
  | case2 s =>
    obtain rfl : ([], s) = found := by simpa using h
    simp
  | case3 c s _ ih =>
    obtain ⟨inner, hi, rfl⟩ := Option.map_eq_some_iff.1 h
    have := ih hi
    simp only [List.length_cons]
    omega

/-- A class, from behind its opening bracket, and the text behind it. -/
def class? : List Char → Option (Token × List Char)
  | '!' :: c :: s => (toBracket? s).map fun found => (.noneOf (ranges (c :: found.1)), found.2)
  | '!' :: [] => none
  | c :: s => (toBracket? s).map fun found => (.oneOf (ranges (c :: found.1)), found.2)
  | [] => none

/-- Behind a class there is less than before. -/
theorem length_of_class? {s : List Char} {found : Token × List Char} (h : class? s = some found) :
    found.2.length < s.length := by
  unfold class? at h
  split at h
  · obtain ⟨inner, hi, rfl⟩ := Option.map_eq_some_iff.1 h
    have := length_of_toBracket? hi
    simp only [List.length_cons]
    omega
  · simp at h
  · obtain ⟨inner, hi, rfl⟩ := Option.map_eq_some_iff.1 h
    have := length_of_toBracket? hi
    simp only [List.length_cons]
    omega
  · simp at h

/-- Reads the rest of a pattern of `size` characters; `before` stands in front of the rest. -/
def readRest (size : Nat) (before : Option Char) (s : List Char) : Except PatternFault Pattern :=
  match s with
  | [] => .ok []
  | '?' :: s => (.anyChar :: ·) <$> readRest size '?' s
  | '*' :: '*' :: '*' :: s => .error ⟨size - (s.length + 1), .tooManyStars⟩
  | '*' :: '*' :: s =>
    if before.all (· == '/') then
      match s with
      | [] => .ok [.anyDirectories]
      | '/' :: s => (.anyDirectories :: ·) <$> readRest size '/' s
      | _ => .error ⟨size - s.length, .partOfSegment⟩
    else .error ⟨size - (s.length + 3), .partOfSegment⟩
  | '*' :: s => (.anyText :: ·) <$> readRest size '*' s
  | '[' :: s =>
    match h : class? s with
    | some (token, rest) => (token :: ·) <$> readRest size ']' rest
    | none => .error ⟨size - (s.length + 1), .badClass⟩
  | c :: s => (.char c :: ·) <$> readRest size c s
termination_by s.length
decreasing_by
  all_goals simp_wf
  all_goals try omega
  have := length_of_class? h
  simp only at this
  omega

/-- Reads a pattern. -/
def ofText (text : String) : Except PatternFault Pattern :=
  readRest text.length none text.toList

/-- The text that a pattern without special characters stands for. -/
def literal? : Pattern → Option (List Char)
  | [] => some []
  | .char c :: p => (literal? p).map (c :: ·)
  | _ :: _ => none

/-- The pattern consists of directories only. -/
def isDeep (p : Pattern) : Bool := p == [.anyDirectories]

end Pattern

/-- The character lies in one of the ranges. -/
def inRanges (ranges : List (Char × Char)) (c : Char) : Bool :=
  ranges.any fun r => r.1 ≤ c && c ≤ r.2

/-- The token stands for the single character. -/
def Token.admits : Token → Char → Bool
  | .char d, c => c == d
  | .oneOf ranges, c => inRanges ranges c
  | .noneOf ranges, c => !inRanges ranges c
  | .anyChar, _ | .anyText, _ | .anyDirectories, _ => true

namespace Pattern

/-- The test holds of some end of the text. -/
def anyEnd (test : List Char → Bool) : List Char → Bool
  | [] => test []
  | c :: s => test (c :: s) || anyEnd test s

/-- A test of ends is about what stands in front of them. -/
theorem anyEnd_eq_true_iff {test : List Char → Bool} {s : List Char} :
    anyEnd test s = true ↔ ∃ front rest, s = front ++ rest ∧ test rest = true := by
  induction s with
  | nil => simp [anyEnd, and_assoc]
  | cons c s ih =>
    simp only [anyEnd, Bool.or_eq_true, ih]
    constructor
    · rintro (h | ⟨front, rest, rfl, h⟩)
      · exact ⟨[], c :: s, rfl, h⟩
      · exact ⟨c :: front, rest, rfl, h⟩
    · rintro ⟨front, rest, he, h⟩
      cases front with
      | nil => exact .inl (by simp_all)
      | cons d front =>
        simp only [List.cons_append, List.cons.injEq] at he
        exact .inr ⟨front, rest, he.2, h⟩

/-- The pattern stands for the whole of the text. -/
def matchesText : Pattern → List Char → Bool
  | [], s => s.isEmpty
  | .anyText :: p, s => anyEnd (matchesText p) s
  | .anyDirectories :: p, s => anyEnd (matchesText p) s
  | token :: p, c :: s => token.admits c && matchesText p s
  | _ :: _, [] => false

/-- The pattern stands for the name. -/
def accepts (p : Pattern) (name : String) : Bool := matchesText p name.toList

end Pattern

end DartUnion.Files
