import DartUnion.Json.Number
import DartUnion.Json.Text

/-!
# Passing over a value

The value of a field that a model does not have is passed over, however deep it is nested. The lists
and objects that are still open are a stack, so the walk is one loop over the text. Each turn passes
over one scalar or opens one list or object, then closes what ends there; every turn takes a
character, so the length of the text bounds their number.
-/

namespace DartUnion.Json

/-- A list or an object that is still open. -/
inductive Open where
  | list
  | object
  deriving Repr, DecidableEq

/-- The character that closes it. -/
def Open.closing : Open → Char
  | .list => ']'
  | .object => '}'

/-- The problem of a value that neither goes on nor ends. -/
def Open.expectedEnd : Open → Problem
  | .list => .expectedListEnd
  | .object => .expectedObjectEnd

/-- The problem of a value that the text ends in. -/
def Open.unclosed : Open → Problem
  | .list => .endInList
  | .object => .endInObject

/-- Passes over a scalar, or opens a list or an object. -/
def skipStart : Reader (Option Open) := do
  match ← nextToken with
  | none => failAhead .endInValue
  | some c =>
    if c = 'n' then advance; exactly ['u', 'l', 'l']; return none
    else if c = 't' then advance; exactly ['r', 'u', 'e']; return none
    else if c = 'f' then advance; exactly ['a', 'l', 's', 'e']; return none
    else if c = '-' then advance; skipNumber; return none
    else if c.isDigit then skipNumber; return none
    else if c = '"' then advance; skipString; return none
    else if c = '[' then advance; return some .list
    else if c = '{' then advance; return some .object
    else failAhead .expectedValue

/-- Closes what ends here. Gives the stack on which the next value stands, the innermost first; it is
empty when all is closed. A comma is wanted unless something was opened just now. -/
def skipClosings : (stack : List Open) → (afterValue : Bool) → Reader (List Open)
  | [], _ => return []
  | top :: below, afterValue => do
    match ← nextToken with
    | none => failAhead top.unclosed
    | some c =>
      if c = ',' && afterValue then advance; return top :: below
      else if c = top.closing then advance; skipClosings below true
      else if afterValue then failAhead top.expectedEnd
      else return top :: below

/-- Passes over a key and its colon. -/
def skipKey : Reader Unit := do
  match ← nextToken with
  | none => failAhead .endInObject
  | some c =>
    if c = '"' then advance else failAhead .keyNotString
  skipString
  match ← nextToken with
  | none => failAhead .endInObject
  | some c => if c = ':' then advance else failAhead .expectedColon

/-- Passes over values until nothing of `stack` is open, in at most `fuel` turns. -/
def skipValues : (fuel : Nat) → (stack : List Open) → Reader Unit
  | 0, _ => return ()
  | fuel + 1, stack => do
    let opened ← skipStart
    let stack ← skipClosings (opened.toList ++ stack) opened.isNone
    match stack with
    | [] => return ()
    | top :: _ =>
      if top = .object then skipKey
      skipValues fuel stack

/-- Passes over one value. -/
def skipValue : Reader Unit := fun s => skipValues (s.length + 1) [] s

end DartUnion.Json
