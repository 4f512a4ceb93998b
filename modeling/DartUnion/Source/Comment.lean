/-!
# Comments and string literals of source text

Before anything is looked for in a source text its comments go (`strip_comments`). A comment marker
inside a string literal is no comment, so the pattern `COMMENT` matches complete literals as well, to
keep them. Here the text is seen as a list of lexemes: complete literals, comments, and single
characters for all the rest. A quote that is never closed on its line, and a block comment that is
never closed at all, are plain characters.

* `closeLiteral?`, `closeBlock?`: where a literal or a block comment ends.
* `nextLexeme` is the match of `COMMENT` at a place, or the character there when it does not match.
* `lexemes` is the view of a text, `stripComments` what is left of it.
* `flatMap_text_lexemes`: the lexemes are the text, nothing lost and nothing added.
-/

namespace DartUnion.Source

/-- What a source text is made of, as far as comments go. -/
inductive Lexeme where
  | plain (c : Char)
  | literal (text : List Char)
  | comment (text : List Char)
  deriving Repr, DecidableEq

/-- The characters of a lexeme. -/
def Lexeme.text : Lexeme → List Char
  | .plain c => [c]
  | .literal t | .comment t => t

/-- What a lexeme leaves behind when comments go. -/
def Lexeme.kept : Lexeme → List Char
  | .plain c => [c]
  | .literal t => t
  | .comment _ => []

/-- Behind an opening `quote`: the body with its closing quote, and the rest. A backslash takes the
next character with it; a line end closes nothing. -/
def closeLiteral? (quote : Char) : List Char → Option (List Char × List Char)
  | [] => none
  | '\\' :: c :: s => (closeLiteral? quote s).map fun r => ('\\' :: c :: r.1, r.2)
  | c :: s =>
    if c = quote then some ([c], s)
    else if c = '\n' || c = '\\' then none
    else (closeLiteral? quote s).map fun r => (c :: r.1, r.2)

/-- Inside a block comment: the text up to and with the first closing marker, and the rest. -/
def closeBlock? : List Char → Option (List Char × List Char)
  | [] => none
  | '*' :: '/' :: s => some (['*', '/'], s)
  | c :: s => (closeBlock? s).map fun r => (c :: r.1, r.2)

/-- The lexeme that starts with `c` when `s` follows, and the text behind it. -/
def nextLexeme (c : Char) (s : List Char) : Lexeme × List Char :=
  if c = '\'' || c = '"' then
    match closeLiteral? c s with
    | some (body, rest) => (.literal (c :: body), rest)
    | none => (.plain c, s)
  else if c = '/' then
    match s with
    | '*' :: t =>
      match closeBlock? t with
      | some (body, rest) => (.comment ('/' :: '*' :: body), rest)
      | none => (.plain c, s)
    | '/' :: t => (.comment ('/' :: '/' :: t.takeWhile (· != '\n')), t.dropWhile (· != '\n'))
    | _ => (.plain c, s)
  else (.plain c, s)

/-- A closed literal and the rest are the text they were read from. -/
theorem closeLiteral?_eq_some {quote : Char} {s body rest : List Char}
    (h : closeLiteral? quote s = some (body, rest)) : body ++ rest = s := by
  fun_induction closeLiteral? quote s generalizing body rest with
  | case1 => simp at h
  | case2 c s ih =>
    obtain ⟨r, hr, he⟩ := Option.map_eq_some_iff.1 h
    grind
  | case3 => grind
  | case4 => simp at h
  | case5 c s _ _ _ ih =>
    obtain ⟨r, hr, he⟩ := Option.map_eq_some_iff.1 h
    grind

/-- A closed block comment and the rest are the text they were read from. -/
theorem closeBlock?_eq_some {s body rest : List Char} (h : closeBlock? s = some (body, rest)) :
    body ++ rest = s := by
  fun_induction closeBlock? s generalizing body rest with
  | case1 => simp at h
  | case2 => grind
  | case3 c s _ ih =>
    obtain ⟨r, hr, he⟩ := Option.map_eq_some_iff.1 h
    grind

/-- A lexeme and the text behind it are the text it was read from. -/
theorem text_nextLexeme (c : Char) (s : List Char) :
    (nextLexeme c s).1.text ++ (nextLexeme c s).2 = c :: s := by
  unfold nextLexeme
  split
  · split
    · next h => simp [Lexeme.text, closeLiteral?_eq_some h]
    · rfl
  · split
    · next hc =>
      subst hc
      split
      · split
        · next h => simp [Lexeme.text, closeBlock?_eq_some h]
        · rfl
      · simp [Lexeme.text]
      · rfl
    · rfl

/-- Every lexeme takes at least one character. -/
theorem length_nextLexeme (c : Char) (s : List Char) : (nextLexeme c s).2.length ≤ s.length := by
  have h := congrArg List.length (text_nextLexeme c s)
  have : 0 < (nextLexeme c s).1.text.length := by
    unfold nextLexeme
    repeat' split
    all_goals simp [Lexeme.text]
  simp at h
  omega

/-- The lexemes of a text. -/
def lexemes : List Char → List Lexeme
  | [] => []
  | c :: s => (nextLexeme c s).1 :: lexemes (nextLexeme c s).2
termination_by s => s.length
decreasing_by exact Nat.lt_succ_of_le (length_nextLexeme c s)

/-- The text without its comments: `strip_comments`. -/
def stripComments (s : List Char) : List Char := (lexemes s).flatMap Lexeme.kept

/-- The lexemes of a text are the text. -/
theorem flatMap_text_lexemes (s : List Char) : (lexemes s).flatMap Lexeme.text = s := by
  fun_induction lexemes s with
  | case1 => rfl
  | case2 c s ih => rw [List.flatMap_cons, ih, text_nextLexeme]

end DartUnion.Source
