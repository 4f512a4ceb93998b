import DartUnion.Declaration.Basic
import DartUnion.Text.Basic

/-!
# Pieces of a parameter list

`split_top_level` cuts a parameter list outside of all brackets: at commas, at a `[` or `{` that
opens a group, and at the bracket that closes it. A bracket opens a group only in front of a piece and
only when no group is open; any other bracket nests. The piece behind a closed group still counts to
it until the next comma. Blank pieces are dropped.

Type arguments, calls, records and literals are nested between four kinds of brackets. The scan counts
how deep it is; it does not ask which kind closes which, and a closing bracket too many leaves the
depth at zero.

* `depthAfter` is the depth behind one more character.
* `Scan` is what the loop of `split_top_level` remembers, `Scan.cuts` where it cuts.
* `cutPieces` gives all pieces, `pieces` those that are not blank.
* `mem_pieces`: a piece that is kept is not blank.
-/

namespace DartUnion.Source

open DartUnion.Text

/-- The character opens one of the four kinds of brackets. -/
def isOpening (c : Char) : Bool := c == '(' || c == '<' || c == '[' || c == '{'

/-- The character closes one of the four kinds of brackets. -/
def isClosing (c : Char) : Bool := c == ')' || c == '>' || c == ']' || c == '}'

/-- The depth behind `c` when it was `depth` before it. -/
def depthAfter (depth : Nat) (c : Char) : Nat :=
  if isOpening c then depth + 1 else if isClosing c then depth - 1 else depth

/-- A stretch of a parameter list and the group that it stands in. -/
structure Piece where
  text : List Char
  group : Group
  deriving Repr, DecidableEq

/-- The state of a scan: how deep it is nested, the group that is open (`positional` for none), the
group of the piece at hand, and whether that piece is blank so far. -/
structure Scan where
  depth : Nat := 0
  inside : Group := .positional
  group : Group := .positional
  blank : Bool := true
  deriving Repr, DecidableEq

/-- The group that `c` opens at this place, if it does. -/
def Scan.opens? (st : Scan) (c : Char) : Option Group :=
  if st.depth == 0 && st.inside == .positional && st.blank then
    if c = '[' then some .optional else if c = '{' then some .named else none
  else none

/-- The group that is open ends here. -/
def Scan.closes (st : Scan) (c : Char) : Bool :=
  (c == ']' || c == '}') && st.depth == 0 && st.inside != .positional

/-- The comma separates two pieces. -/
def Scan.separates (st : Scan) (c : Char) : Bool := c == ',' && st.depth == 0

/-- The piece at hand ends in front of `c`, which belongs to no piece. -/
def Scan.cuts (st : Scan) (c : Char) : Bool :=
  (st.opens? c).isSome || st.closes c || st.separates c

/-- The state behind `c`. -/
def Scan.after (st : Scan) (c : Char) : Scan :=
  match st.opens? c with
  | some g => { depth := 0, inside := g, group := g, blank := true }
  | none =>
    if st.closes c then { st with inside := .positional, blank := true }
    else if st.separates c then { st with group := st.inside, blank := true }
    else { st with depth := depthAfter st.depth c, blank := st.blank && isBlank c }

/-- The rest of the piece at hand and the pieces behind it. -/
def cutPieces (st : Scan) : List Char → Piece × List Piece
  | [] => (⟨[], st.group⟩, [])
  | c :: s =>
    let rest := cutPieces (st.after c) s
    if st.cuts c then (⟨[], st.group⟩, rest.1 :: rest.2)
    else (⟨c :: rest.1.text, st.group⟩, rest.2)

/-- The pieces of a parameter list that are not blank: `split_top_level`. -/
def pieces (s : List Char) : List Piece :=
  let all := cutPieces {} s
  (all.1 :: all.2).filter fun p => !allBlank p.text

/-- No piece that is kept is blank. -/
theorem mem_pieces {s : List Char} {p : Piece} (h : p ∈ pieces s) : allBlank p.text = false := by
  simpa using (List.mem_filter.1 h).2

end DartUnion.Source
