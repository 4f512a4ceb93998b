import DartUnion.Command.Invocation
import DartUnion.Text.Quoted

/-!
# Invocations on show

With `--no-op` nothing is done, and the invocation is shown instead: each value on a line of its own,
four spaces per level, and a comma behind each. Text is quoted, and so is the path that is written to.

* `Invocation.shown` is the text of an invocation, a `CommandLineInterface` printed for debugging.
-/

namespace DartUnion.Command

/-- A value as text at each depth. -/
abbrev Shown := Nat → String

namespace Shown

/-- A value that fits on a line. -/
def word (text : String) : Shown := fun _ => text

/-- A truth value. -/
def truth (b : Bool) : Shown := word (if b then "true" else "false")

/-- The space in front of a line. -/
def indent (depth : Nat) : String := String.ofList (List.replicate (4 * depth) ' ')

/-- Values one level deeper, one per line, between an opening and a closing text. -/
def block (opening closing : String) (items : List Shown) : Shown := fun depth =>
  if items.isEmpty then opening ++ closing
  else
    opening ++ "\n" ++
      String.join (items.map fun item => indent (depth + 1) ++ item (depth + 1) ++ ",\n") ++
      indent depth ++ closing

/-- A value with named parts. -/
def record (name : String) (fields : List (String × Shown)) : Shown :=
  block (name ++ " \x7b") "\x7d" (fields.map fun f => fun depth => f.1 ++ ": " ++ f.2 depth)

/-- A value within another one. -/
def wrapped (name : String) (value : Shown) : Shown := block (name ++ "(") ")" [value]

/-- A value that may be missing. -/
def optional : Option Shown → Shown
  | some value => wrapped "Some" value
  | none => word "None"

/-- A list. -/
def list (items : List Shown) : Shown := block "[" "]" items

/-- The inputs of a job. -/
def inputList (names : List String) : Shown :=
  record "InputSettings" [("input", list (names.map fun name => word (Text.quoted name)))]

/-- The path that is written to. -/
def outPath (path : Option String) : Shown := optional (path.map fun path => word (Text.quotedPath path))

/-- The fallback. -/
def fallback : Output.Fallback → Shown
  | .firstVariant => word "First"
  | .throwError => word "Throw"

end Shown

open Shown

/-- A job of generating code. -/
def DartJob.shown (job : DartJob) : Shown :=
  record "DartOut" [
    ("input_settings", inputList job.inputs),
    ("from_model", truth job.fromModel),
    ("out", outPath job.out),
    ("in_place", truth job.inPlace),
    ("no_import", truth !job.options.equatableImport),
    ("no_from_string", truth !job.options.fromString),
    ("fallback", fallback job.options.fallback),
    ("helper_suffix", word (Text.quoted job.options.helperSuffix)),
    ("no_op", truth job.noOp)]

/-- A job of writing models. -/
def ModelJob.shown (job : ModelJob) : Shown :=
  record "ModelOut" [
    ("input_settings", inputList job.inputs),
    ("out", outPath job.out),
    ("no_op", truth job.noOp)]

/-- A job. -/
def Job.shown : Job → Shown
  | .dart job => wrapped "Dart" job.shown
  | .model job => wrapped "Model" job.shown

/-- The text of an invocation. -/
def Invocation.shown (i : Invocation) : String :=
  record "CommandLineInterface" [
    ("verbose", word (toString i.verbose)),
    ("cmd", i.job.shown)] 0

end DartUnion.Command
