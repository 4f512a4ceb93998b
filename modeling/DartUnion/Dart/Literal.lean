/-!
# Single-quoted string literals of Dart

Inside a single-quoted literal a backslash takes the next character as it is, a bare `$` starts an
interpolation and the first bare quote ends the literal. So text is put into a literal by a
backslash in front of these three characters.

* `escape` writes text as the body of a literal: `escape_dart_string`.
* `readBody?` reads the body of a literal as a list of parts, up to and with its closing quote.
* `mem_of_mem_escapeChars`: escaping adds backslashes only.
* `ReadsAs`: a piece of a body that reads as certain parts, whatever follows it.
* `readsAs_escape`, `readsAs_interpolation`: what escaped text and an interpolation read as.
* `readBody?_escape`: escaped text reads back as itself, and what stands behind the quote is left.
-/

namespace DartUnion.Dart

/-- The character means something inside a literal. -/
def isSpecial (c : Char) : Bool := c == '\\' || c == '\'' || c == '$'

/-- A backslash in front of every special character. -/
def escapeChars (s : List Char) : List Char :=
  s.flatMap fun c => if isSpecial c then ['\\', c] else [c]

/-- Text as the body of a literal. -/
def escape (s : String) : String := String.ofList (escapeChars s.toList)

theorem toList_escape (s : String) : (escape s).toList = escapeChars s.toList :=
  String.toList_ofList

/-- Escaping adds backslashes only. -/
theorem mem_of_mem_escapeChars {c : Char} {s : List Char} (h : c ∈ escapeChars s) :
    c = '\\' ∨ c ∈ s := by
  obtain ⟨e, he, hc⟩ := List.mem_flatMap.1 h
  split at hc
  · rcases List.mem_cons.1 hc with rfl | hc
    · exact .inl rfl
    · rw [List.mem_singleton.1 hc]
      exact .inr he
  · rw [List.mem_singleton.1 hc]
    exact .inr he

/-- What the body of a literal is made of. -/
inductive LiteralPart where
  | char (c : Char)
  | interpolation (expression : List Char)
  deriving Repr, DecidableEq

/-- The body of a literal up to its closing quote, and the text behind the quote. There is none when
the line ends first, when the quote is missing, or at a `$` without braces. -/
def readBody? : List Char → Option (List LiteralPart × List Char)
  | [] => none
  | '\'' :: s => some ([], s)
  | '\\' :: c :: s => (readBody? s).map fun r => (.char c :: r.1, r.2)
  | '$' :: '{' :: s =>
    match _h : s.dropWhile (· != '}') with
    | '}' :: t => (readBody? t).map fun r => (.interpolation (s.takeWhile (· != '}')) :: r.1, r.2)
    | _ => none
  | c :: s =>
    if isSpecial c || c = '\n' || c = '\r' then none
    else (readBody? s).map fun r => (.char c :: r.1, r.2)
termination_by s => s.length
decreasing_by
  · simp only [List.length_cons]; omega
  · have := (List.dropWhile_suffix (l := s) (· != '}')).length_le
    rw [_h] at this
    simp only [List.length_cons] at *
    omega
  · simp

/-- Text without line ends, which a literal can stand for. -/
def OnOneLine (s : List Char) : Prop := ∀ c ∈ s, c ≠ '\n' ∧ c ≠ '\r'

instance (s : List Char) : Decidable (OnOneLine s) :=
  List.decidableBAll (fun c => c ≠ '\n' ∧ c ≠ '\r') s

/-- The piece of a body reads as these parts, whatever follows it. -/
def ReadsAs (s : List Char) (parts : List LiteralPart) : Prop :=
  ∀ t, readBody? (s ++ t) = (readBody? t).map fun r => (parts ++ r.1, r.2)

theorem readsAs_nil : ReadsAs [] [] := by
  intro t
  rw [List.nil_append]
  exact Option.map_id'.symm

/-- Pieces one behind the other read as their parts one behind the other. -/
theorem ReadsAs.append {s t : List Char} {ps qs : List LiteralPart} (hs : ReadsAs s ps)
    (ht : ReadsAs t qs) : ReadsAs (s ++ t) (ps ++ qs) := by
  intro rest
  rw [List.append_assoc, hs (t ++ rest), ht rest, Option.map_map]
  simp only [Function.comp_def, List.append_assoc]

/-- A piece in front of the closing quote. -/
theorem ReadsAs.closed {s : List Char} {ps : List LiteralPart} (h : ReadsAs s ps)
    (rest : List Char) : readBody? (s ++ '\'' :: rest) = some (ps, rest) := by
  rw [h ('\'' :: rest), readBody?, Option.map_some, List.append_nil]

/-- Escaped text reads as its characters. -/
theorem readsAs_escape {s : List Char} (hs : OnOneLine s) :
    ReadsAs (escapeChars s) (s.map .char) := by
  induction s with
  | nil => exact readsAs_nil
  | cons c s ih =>
    have hc := hs c List.mem_cons_self
    have hfirst : ReadsAs (if isSpecial c then ['\\', c] else [c]) [.char c] := by
      intro t
      by_cases h : isSpecial c = true
      · rw [if_pos h, List.cons_append, List.cons_append, List.nil_append, readBody?]
        rfl
      · rw [if_neg h, List.cons_append, List.nil_append, readBody?]
        · simp [h, hc]
        all_goals (simp [isSpecial] at h; grind)
    exact hfirst.append (ih fun d hd => hs d (List.mem_cons_of_mem c hd))

/-- An interpolation ends at its first brace. -/
theorem readsAs_interpolation {e : List Char} (he : '}' ∉ e) :
    ReadsAs ('$' :: '{' :: (e ++ ['}'])) [.interpolation e] := by
  intro t
  have hne : ∀ c ∈ e, (c != '}') = true := by
    intro c hc
    rw [bne_iff_ne]
    rintro rfl
    exact he hc
  have hdrop : (e ++ '}' :: t).dropWhile (· != '}') = '}' :: t := by
    rw [List.dropWhile_append_of_pos hne, List.dropWhile_cons_of_neg (by simp)]
  have htake : (e ++ '}' :: t).takeWhile (· != '}') = e := by
    rw [List.takeWhile_append_of_pos hne, List.takeWhile_cons_of_neg (by simp), List.append_nil]
  rw [List.cons_append, List.cons_append, List.append_assoc, List.singleton_append, readBody?]
  split
  · next u hu =>
    rw [hdrop] at hu
    obtain rfl := (List.cons.inj hu).2
    rw [htake]
    rfl
  · next h => exact absurd hdrop (h t)

/-- Escaped text reads back as itself, whatever follows the closing quote. -/
theorem readBody?_escape {s : List Char} (hs : OnOneLine s) (rest : List Char) :
    readBody? (escapeChars s ++ '\'' :: rest) = some (s.map .char, rest) :=
  (readsAs_escape hs).closed rest

end DartUnion.Dart
