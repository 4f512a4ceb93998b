import DartUnion.Text.Quoted

/-!
# Readers of a model text and their faults

A reader takes something from the front of a text or says what is wrong with it. The blanks between
tokens are space, tab and the two line ends; nothing else of White_Space counts.

A fault says what is wrong, at which place of the text, and under which node: the path of keys and
indices that lead there, as `from_str_with_path` puts it into a `PathError`. The path of a key that
could not be read ends with an unknown step.

A reader holds the text that is left. A place is given by that text and by a number of bytes beyond
the point where it starts; only when a message is worded does it become a line and a column. Lines
count from one. Columns count the bytes of the line before the place, so a character beyond ASCII is
several columns wide and a place can lie inside one.

* `Position.advance` walks over characters, `Position.skip` over bytes.
* `Problem.words`, `pathWords`: the wording; `Fault.report` is the `PathError` of a fault.
* `fail` reports the place in front of the text that is left, `failAhead` the one a byte further,
  for a character that was only looked at.
* `exactly`: the tails of `null`, `true` and `false`.
* `advance_append`: walking over two texts is walking over one and then over the other.
-/

namespace DartUnion.Json

/-! ## Places -/

/-- A line and a column. -/
structure Position where
  line : Nat := 1
  column : Nat := 0
  deriving Repr, DecidableEq

/-- The position behind a character. -/
def Position.behind (p : Position) (c : Char) : Position :=
  if c = '\n' then ⟨p.line + 1, 0⟩ else ⟨p.line, p.column + c.utf8Size⟩

/-- The position behind a text. -/
def Position.advance (p : Position) (s : List Char) : Position := s.foldl Position.behind p

/-- The position so many bytes into a text, or at its end. -/
def Position.skip (p : Position) (bytes : Nat) : List Char → Position
  | [] => p
  | c :: s =>
    if c.utf8Size ≤ bytes then (p.behind c).skip (bytes - c.utf8Size) s
    else ⟨p.line, p.column + bytes⟩

/-- Walking over two texts is walking over the one and then over the other. -/
theorem Position.advance_append (p : Position) (s t : List Char) :
    p.advance (s ++ t) = (p.advance s).advance t := by
  simp [advance]

/-- A place: the text that is left, and so many bytes into it. -/
structure Place where
  rest : List Char
  bytes : Nat := 0
  deriving Repr, DecidableEq

/-- The line and column of a place in the whole text. -/
def Place.position (whole : List Char) (p : Place) : Position :=
  let read := whole.take (whole.length - p.rest.length)
  (Position.advance {} read).skip p.bytes p.rest

/-! ## Faults -/

/-- One step from a node to a node in it. -/
inductive Step where
  | key (name : String)
  | index (i : Nat)
  | unknown
  deriving Repr, DecidableEq

/-- A value where another kind of value is expected. -/
inductive Found where
  | null
  | bool (b : Bool)
  | integer (n : Int)
  | float (text : String)
  | string (s : String)
  | list
  | object
  deriving Repr, DecidableEq

/-- What is wrong. -/
inductive Problem where
  | endInValue
  | endInString
  | endInList
  | endInObject
  | expectedColon
  | expectedListEnd
  | expectedObjectEnd
  | expectedIdent
  | expectedValue
  | invalidEscape
  | invalidNumber
  | numberOutOfRange
  | controlCharacter
  | keyNotString
  | loneSurrogate
  | endOfHexEscape
  | trailingComma
  | trailingCharacters
  | wrongType (found : Found) (expected : String)
  | wrongLength (length : Nat) (expected : String)
  | missingField (name : String)
  | duplicateField (name : String)
  | unknownVariant (name : String) (expected : List String)
  deriving Repr, DecidableEq

/-- A problem, where it is in the text, and the way to the node that has it. -/
structure Fault where
  problem : Problem
  place : Place
  path : List Step := []
  deriving Repr, DecidableEq

/-- The fault seen from the node above. -/
def Fault.under (step : Step) (f : Fault) : Fault := { f with path := step :: f.path }

/-! ## Wording -/

/-- A value of the wrong kind, in words. -/
def Found.words : Found → String
  | .null => "null"
  | .bool b => "boolean `" ++ toString b ++ "`"
  | .integer n => "integer `" ++ toString n ++ "`"
  | .float text => "floating point `" ++ text ++ "`"
  | .string s => "string " ++ Text.quoted s
  | .list => "sequence"
  | .object => "map"

/-- A name between backquotes. -/
def ticked (s : String) : String := "`" ++ s ++ "`"

/-- A problem, in words. -/
def Problem.words : Problem → String
  | .endInValue => "EOF while parsing a value"
  | .endInString => "EOF while parsing a string"
  | .endInList => "EOF while parsing a list"
  | .endInObject => "EOF while parsing an object"
  | .expectedColon => "expected `:`"
  | .expectedListEnd => "expected `,` or `]`"
  | .expectedObjectEnd => "expected `,` or `\x7d`"
  | .expectedIdent => "expected ident"
  | .expectedValue => "expected value"
  | .invalidEscape => "invalid escape"
  | .invalidNumber => "invalid number"
  | .numberOutOfRange => "number out of range"
  | .controlCharacter => "control character (\\u0000-\\u001F) found while parsing a string"
  | .keyNotString => "key must be a string"
  | .loneSurrogate => "lone leading surrogate in hex escape"
  | .endOfHexEscape => "unexpected end of hex escape"
  | .trailingComma => "trailing comma"
  | .trailingCharacters => "trailing characters"
  | .wrongType found expected => "invalid type: " ++ found.words ++ ", expected " ++ expected
  | .wrongLength length expected =>
    "invalid length " ++ toString length ++ ", expected " ++ expected
  | .missingField name => "missing field " ++ ticked name
  | .duplicateField name => "duplicate field " ++ ticked name
  | .unknownVariant name expected =>
    "unknown variant " ++ ticked name ++ ", expected one of " ++
      ", ".intercalate (expected.map ticked)

/-- A path in words: keys joined by dots, indices in brackets, and one dot for the root. -/
def pathWords : List Step → String
  | [] => "."
  | steps => go true steps
where
  /-- The steps from one on, the first being without a dot. -/
  go (first : Bool) : List Step → String
    | [] => ""
    | .key name :: steps => (if first then "" else ".") ++ name ++ go false steps
    | .index i :: steps => "[" ++ toString i ++ "]" ++ go false steps
    | .unknown :: steps => (if first then "" else ".") ++ "?" ++ go false steps

/-- A fault as it is reported for a text: the path and the detail. -/
structure Report where
  path : String
  detail : String
  deriving Repr, DecidableEq

/-- The report of a fault in the text `whole`. -/
def Fault.report (whole : List Char) (f : Fault) : Report :=
  let p := f.place.position whole
  { path := pathWords f.path
    detail := f.problem.words ++ " at line " ++ toString p.line ++ " column " ++ toString p.column }

/-- A report as one message. -/
def Report.message (r : Report) : String := "at JSON path " ++ r.path ++ " → " ++ r.detail

/-! ## Readers -/

/-- A reader of an `α` from the front of a text. -/
abbrev Reader (α : Type) := StateT (List Char) (Except Fault) α

/-- The problem is `bytes` into the text that is left. -/
def failAt {α : Type} (bytes : Nat) (p : Problem) : Reader α :=
  fun s => .error { problem := p, place := ⟨s, bytes⟩ }

/-- The problem is in front of the text that is left. -/
def fail {α : Type} (p : Problem) : Reader α := failAt 0 p

/-- The problem is the next character, or the end of the text. -/
def failAhead {α : Type} (p : Problem) : Reader α := failAt 1 p

/-- What is read stands below a node. -/
def under {α : Type} (step : Step) (r : Reader α) : Reader α :=
  fun s => (r s).mapError (Fault.under step)

/-- A character between tokens. -/
def isGap (c : Char) : Bool := c == ' ' || c == '\n' || c == '\t' || c == '\r'

/-- Passes over the gap in front and gives the character behind it. -/
def nextToken : Reader (Option Char) := fun s =>
  let s := s.dropWhile isGap
  .ok (s.head?, s)

/-- Passes over one character. -/
def advance : Reader Unit := fun s => .ok ((), s.tail)

/-- Passes over the characters of a word whose first one was seen already. -/
def exactly (word : List Char) : Reader Unit :=
  match word with
  | [] => pure ()
  | c :: word => fun s =>
    match s with
    | [] => fail .endInValue s
    | d :: t => if d = c then exactly word t else failAt 1 .expectedIdent s

end DartUnion.Json
