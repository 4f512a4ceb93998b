import DartUnion.Dart.Literal
import DartUnion.Declaration.Basic

/-!
# Options, lines and arms

What generated code is asked for and what it is made of.

* `Options` (`GenOptions`) say what may be switched: the import in front, the look-up by label, what
  that look-up does with a string that no label matches (`Fallback`, `FallbackPolicy`), and the end of
  the extension's name.
* `Line`: generated code is a list of lines, each with the depth at which it stands. Only `render`
  makes text of them, as `line` and `blank` do: two spaces per level in front of a line and a line end
  behind it. An empty line has depth zero, so it never holds spaces.
* `Arm`: all generated methods are one `switch` each. An arm has a pattern and a body. A `Pattern` is
  an object pattern that binds nothing, a typed pattern that binds the case, a string literal, or the
  wildcard.
* `render_append`: the text of lines put one behind the other is their texts put together.
-/

namespace DartUnion.Output

open DartUnion.Dart

/-! ## Options -/

/-- What the look-up does with a string that is the label of no unit case. -/
inductive Fallback where
  /-- Build the first case, even when it has parameters. -/
  | firstVariant
  /-- Throw an argument error. -/
  | throwError
  deriving Repr, DecidableEq, Inhabited

/-- The case that an unmatched look-up gives, if it gives one: `fallback_variant`. -/
def Fallback.variant? : Fallback → Declaration → Option Variant
  | .firstVariant, d => d.variants.head?
  | .throwError, _ => none

/-- The options, with the values that hold when nothing is said. -/
structure Options where
  equatableImport : Bool := true
  fromString : Bool := true
  fallback : Fallback := .firstVariant
  helperSuffix : String := "Helper"
  deriving Repr, DecidableEq, Inhabited

/-! ## Lines -/

/-- A line of code and how deep it is indented. -/
structure Line where
  depth : Nat
  text : String
  deriving Repr, DecidableEq

/-- The empty line. -/
def Line.blank : Line := ⟨0, ""⟩

/-- The line one level deeper. -/
def Line.deeper (l : Line) : Line := { l with depth := l.depth + 1 }

/-- A line as text. -/
def Line.render (l : Line) : String := String.join (List.replicate l.depth "  ") ++ l.text ++ "\n"

/-- Lines as text. -/
def render (ls : List Line) : String := String.join (ls.map Line.render)

/-- Rendering goes line by line. -/
theorem render_append (a b : List Line) : render (a ++ b) = render a ++ render b := by
  simp [render]

/-! ## Arms of switches -/

/-- What an arm matches. -/
inductive Pattern where
  /-- A value of the type, bound to nothing: `Loading()`. -/
  | object (type : String)
  /-- A value of the type, bound to a name: `final Failure value`. -/
  | bind (type name : String)
  /-- A string, given by what it is and not by how it is written. -/
  | literal (text : String)
  /-- Anything. -/
  | wildcard
  deriving Repr, DecidableEq

/-- A pattern as code. -/
def Pattern.text : Pattern → String
  | .object type => type ++ "()"
  | .bind type name => "final " ++ type ++ " " ++ name
  | .literal text => "'" ++ escape text ++ "'"
  | .wildcard => "_"

/-- The pattern of a case that binds it only when it has parameters to read: `case_pattern`. -/
def Pattern.ofVariant (v : Variant) (binding : String) : Pattern :=
  if v.isUnit then .object v.typeName else .bind v.typeName binding

/-- One arm of a switch. -/
structure Arm where
  pattern : Pattern
  body : String
  deriving Repr, DecidableEq

/-- An arm as code. -/
def Arm.text (a : Arm) : String := a.pattern.text ++ " => " ++ a.body ++ ","

end DartUnion.Output
