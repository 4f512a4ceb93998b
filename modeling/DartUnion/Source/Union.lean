import DartUnion.Failure
import DartUnion.Source.Comment
import DartUnion.Source.Factory
import DartUnion.Text.Word

/-!
# Unions in source text

`parse` reads the union of a source text. Comments are gone before anything is looked for. The name
stands in the first header, and there is one variant for every factory fragment that can be read,
whichever class it stands in. A text without a header declares no union; a union without variants is
one.

* The header (`union_name`, the pattern `CLASS_NAME`): the first word `class` that is followed by
  blanks and a name of a union. The name is the longest run of letters and digits there; the word
  `class` needs no blank before it, only something that is no part of a word.
* Fragments (`find_variants`, the pattern `FACTORY_FRAGMENT`), looked for in the text that `normalize`
  puts on one line: a statement is the text up to a semicolon; its fragment starts at the first whole
  word `factory` in it and ends with the semicolon. So what stands before a semicolon never touches
  what stands behind it, and text behind the last semicolon counts for nothing.

* `findUnionName?`, `fragments` and `variants` are these two, `Declaration.ofSource` is `parse`.
* `statements_append`: the statements of two texts, of which the first is closed, are those of the
  one and those of the other.
-/

namespace DartUnion

namespace Source

open DartUnion.Text DartUnion.Dart

/-! ## The header -/

/-- The name in a header at the front of the text. -/
def headerName? (s : List Char) : Option (List Char) := do
  let s ← dropWord? "class".toList s
  let s ← dropBlanks? s
  let (name, _) ← unionName.scan? s
  return name

/-- The name in the first header of the text, `before` being the character in front of it. From the
start of a text on this is `union_name`. -/
def findUnionName? (before : Option Char) : List Char → Option (List Char)
  | [] => none
  | c :: s =>
    match if noWordChar before then headerName? (c :: s) else none with
    | some name => some name
    | none => findUnionName? (some c) s

/-! ## Fragments -/

/-- The text on one line: line ends become spaces, as `normalize` makes them. -/
def oneLine (s : List Char) : List Char :=
  s.map fun c => if c = '\n' || c = '\r' then ' ' else c

/-- The texts in front of each semicolon. -/
def statements (s : List Char) : List (List Char) := endedBy ';' s

/-- From the first word `factory` of a statement to its semicolon. -/
def fragment? (statement : List Char) : Option (List Char) :=
  (fromWord? "factory".toList none statement).map (· ++ [';'])

/-- The factory fragments of a text. -/
def fragments (s : List Char) : List (List Char) := (statements s).filterMap fragment?

/-- A statement ends at its semicolon. -/
theorem statements_closed {t : List Char} (h : ';' ∉ t) (s : List Char) :
    statements (t ++ ';' :: s) = t :: statements s :=
  endedBy_closed h s

/-- A text without semicolons holds no whole statement. -/
theorem statements_open {t : List Char} (h : ';' ∉ t) : statements t = [] := endedBy_open h

/-- A semicolon parts the statements before it from those behind it. -/
theorem statements_append (a b : List Char) :
    statements (a ++ ';' :: b) = statements (a ++ [';']) ++ statements b :=
  endedBy_append a b

/-! ## The union -/

/-- The variants of a text without comments, in order: `find_variants` behind `normalize`. -/
def variants (s : List Char) : List Variant := (fragments (oneLine s)).filterMap variant?

/-- The union of a text without comments, before its names are checked. -/
def union? (s : List Char) : Option Declaration :=
  (findUnionName? none s).map fun name => ⟨String.ofList name, variants s⟩

end Source

/-- The union that a source text declares: `parse`. -/
def Declaration.ofSource (source : String) : Except Failure Declaration :=
  match Source.union? (Source.stripComments source.toList) with
  | none => .error .noUnion
  | some d => d.check.map fun _ => d

end DartUnion
