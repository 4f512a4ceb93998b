import DartUnion.Command.Invocation
import DartUnion.Failure
import DartUnion.Files.Glob
import DartUnion.Json.Load
import DartUnion.Output.Code
import DartUnion.Source.Union

/-!
# What becomes of an input

An input is read and converted for itself, whatever becomes of the others. There are three outcomes:
a result, the finding that the input declares no union, and a fault. Only the fault counts as a
failure.

* `codeOutcome` (`dart_for_file`) and `modelOutcome` (`model_for_file`) are the outcomes for the two
  commands. Both take the text from `read_source`.
* `convert` is `convert`; `codeOfModel` is what `dart_for_file` does with a model.
* `Outcome.report?` is the line of `report_no_union` or `report_failure`.
-/

namespace DartUnion.Command

open Files

/-- Why an input fails. -/
inductive InputFault where
  | unreadable (path : String) (fault : FileFault)
  | badModel (report : Json.Report)
  | unparsed (path : String) (failure : Failure)
  | refused (failure : Failure)

/-- The wording of a fault. -/
def InputFault.message : InputFault → String
  | .unreadable path fault => "failed to read " ++ path ++ ": " ++ fault.message
  | .badModel report => "invalid model JSON: " ++ report.message
  | .unparsed path failure => "failed to parse " ++ path ++ ": " ++ failure.message
  | .refused failure => failure.message

/-- What becomes of an input. -/
inductive Outcome (α : Type) where
  | done (result : α)
  | noUnion
  | failed (fault : InputFault)

namespace Outcome

variable {α : Type}

/-- The outcome of a conversion; the fault that a failure is depends on where it comes up. -/
def ofExcept (fault : Failure → InputFault) : Except Failure α → Outcome α
  | .ok result => .done result
  | .error .noUnion => .noUnion
  | .error failure => .failed (fault failure)

/-- The result, if there is one. -/
def result? : Outcome α → Option α
  | .done result => some result
  | .noUnion | .failed _ => none

/-- The outcome counts as a failure. -/
def isFailure : Outcome α → Bool
  | .failed _ => true
  | .done _ | .noUnion => false

/-- What is reported about an input, if anything, by `report_no_union` or `report_failure`. -/
def report? (path : String) : Outcome α → Option String
  | .done _ => none
  | .noUnion => some ("skipped " ++ path ++ ": no union declaration found, nothing generated")
  | .failed fault => some ("error " ++ path ++ ": " ++ fault.message)

end Outcome

/-- The code for a source text. -/
def convert (options : Output.Options) (source : String) : Except Failure String :=
  (Declaration.ofSource source).bind (·.code options)

/-- The code for a model; the model is checked like one that was read from a source. -/
def codeOfModel (options : Output.Options) (d : Declaration) : Except Failure String :=
  d.check.bind fun _ => d.code options

/-- The outcome for the text of an input when code is to be generated. -/
def DartJob.outcomeOf (job : DartJob) (text : String) : Outcome String :=
  if job.fromModel then
    match Declaration.ofJson text with
    | .ok d => .ofExcept .refused (codeOfModel job.options d)
    | .error report => .failed (.badModel report)
  else .ofExcept .refused (convert job.options text)

/-- The outcome for an input when code is to be generated: `dart_for_file`. -/
def codeOutcome (t : Tree) (job : DartJob) (path : String) : Outcome String :=
  match t.read path with
  | .ok text => job.outcomeOf text
  | .error fault => .failed (.unreadable path fault)

/-- The outcome for an input when a model is to be written: `model_for_file`. -/
def modelOutcome (t : Tree) (path : String) : Outcome Declaration :=
  match t.read path with
  | .ok text => .ofExcept (.unparsed path) (Declaration.ofSource text)
  | .error fault => .failed (.unreadable path fault)

end DartUnion.Command
