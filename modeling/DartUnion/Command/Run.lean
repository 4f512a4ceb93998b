import DartUnion.Command.Outcome
import DartUnion.Command.Shown
import DartUnion.Json.Print

/-!
# Runs

A run turns a tree of files into another one, with text on the output and messages beside it, and it
may fail. All inputs are read and converted before anything is written, so no input sees what another
one left behind. What went well is written even when other inputs failed; the failure comes last.

* `Invocation.run` is `CommandLineInterface::run`. Its two cases are `DartJob.run` and `ModelJob.run`.
* `sources` are the paths of `InputSettings::resolve`, or the refusal of several inputs for one output.
* `deliver` is `write_output` and the failure behind it; `writeFile` is `write_output` to a file.
* `replaceInputs` is the loop that writes each result over its input.
-/

namespace DartUnion.Command

open Files

/-- Why a run fails. -/
inductive RunFailure where
  | unresolved (fault : ResolveFault)
  | severalForOut (number : Nat)
  | notCreated (path : String) (fault : FileFault)
  | notWritten (path : String) (fault : FileFault)
  | inputsFailed (number : Nat)
  deriving Repr, DecidableEq

/-- The wording of a failure. -/
def RunFailure.message : RunFailure → String
  | .unresolved fault => "failed to resolve input file paths: " ++ fault.message
  | .severalForOut number => "--out takes a single input, got " ++ toString number
  | .notCreated path fault => "failed to create " ++ path ++ ": " ++ fault.message
  | .notWritten path fault => "failed to write " ++ path ++ ": " ++ fault.message
  | .inputsFailed number => toString number ++ " input(s) failed"

/-- What a run leaves behind. -/
structure Result where
  tree : Tree
  output : String := ""
  messages : List String := []
  failure : Option RunFailure := none

/-- The messages as text, a line for each. -/
def Result.messageText (r : Result) : String := String.join (r.messages.map (· ++ "\n"))

/-- Inputs with what became of them. -/
abbrev Outcomes (α : Type) := List (String × Outcome α)

namespace Outcomes

variable {α : Type}

/-- The results, in order. -/
def results (os : Outcomes α) : List α := os.filterMap fun o => o.2.result?

/-- What is reported about the inputs. -/
def reports (os : Outcomes α) : List String := os.filterMap fun o => o.2.report? o.1

/-- The number of inputs that failed. -/
def failures (os : Outcomes α) : Nat := os.countP fun o => o.2.isFailure

/-- The results of two batches are those of the one and those of the other. -/
theorem results_append (os ps : Outcomes α) : results (os ++ ps) = results os ++ results ps :=
  List.filterMap_append

/-- An input without a result adds nothing to the results. -/
theorem results_cons_of_none {o : String × Outcome α} (h : o.2.result? = none) (os : Outcomes α) :
    results (o :: os) = results os :=
  List.filterMap_cons_none h

/-- The failures of two batches add up. -/
theorem failures_append (os ps : Outcomes α) : failures (os ++ ps) = failures os + failures ps :=
  List.countP_append

end Outcomes

/-- The failure of a run in which `number` inputs failed. -/
def failureOf (number : Nat) : Option RunFailure :=
  if number = 0 then none else some (.inputsFailed number)

/-- The inputs of a job as paths. An output file takes one input only. -/
def sources (t : Tree) (inputs : List String) (out : Option String) :
    Except RunFailure (List String) :=
  match resolve t inputs with
  | .error fault => .error (.unresolved fault)
  | .ok paths =>
    if out.isSome && paths.length > 1 then .error (.severalForOut paths.length) else .ok paths

/-! ## Writing to the output -/

/-- The tree with the directories that a file is to stand in. -/
def prepare (t : Tree) (path : String) : Tree × Option RunFailure :=
  match parent? path with
  | none => (t, none)
  | some parent =>
    let made := t.makeDirectories parent
    (made.1, made.2.map (.notCreated parent))

/-- Text in a file, in directories that are made where they are missing: `write_output`. -/
def writeFile (t : Tree) (path text : String) : Tree × Option RunFailure :=
  match prepare t path with
  | (t, some failure) => (t, some failure)
  | (t, none) =>
    match t.write path text with
    | .ok t => (t, none)
    | .error fault => (t, some (.notWritten path fault))

/-- The end of a run that leaves its text on the output or in a file. A file that cannot be written
is the failure, whatever became of the inputs. -/
def deliver {α : Type} (t : Tree) (os : Outcomes α) (out : Option String) (text : String) :
    Result :=
  match out with
  | none =>
    { tree := t, output := text, messages := os.reports, failure := failureOf os.failures }
  | some path =>
    let written := writeFile t path text
    { tree := written.1
      messages := os.reports
      failure := written.2.or (failureOf os.failures) }

/-! ## Replacing inputs -/

/-- How far the replacing of inputs has come. -/
structure Replacing where
  tree : Tree
  messages : List String := []
  failures : Nat := 0

/-- One more message. -/
def Replacing.say (r : Replacing) (message : String) : Replacing :=
  { r with messages := r.messages ++ [message] }

/-- One more failure, with its message. -/
def Replacing.fail (r : Replacing) (message : String) : Replacing :=
  { r.say message with failures := r.failures + 1 }

/-- Replaces a file by its result, if there is one. -/
def Replacing.next (r : Replacing) (o : String × Outcome String) : Replacing :=
  match o with
  | (path, .done text) =>
    match r.tree.write path text with
    | .ok t => { r with tree := t }.say ("rewrote " ++ path)
    | .error fault => r.fail ("error " ++ path ++ ": failed to write: " ++ fault.message)
  | (path, outcome) =>
    match outcome.report? path with
    | none => r
    | some message => if outcome.isFailure then r.fail message else r.say message

/-- The end of a run that replaces its inputs. -/
def replaceInputs (t : Tree) (os : Outcomes String) : Result :=
  let r := os.foldl Replacing.next { tree := t }
  { tree := r.tree, messages := r.messages, failure := failureOf r.failures }

/-! ## Jobs -/

/-- The run of a job of generating code. -/
def DartJob.run (job : DartJob) (t : Tree) : Result :=
  match sources t job.inputs job.out with
  | .error failure => { tree := t, failure := some failure }
  | .ok paths =>
    let os : Outcomes String := paths.map fun path => (path, codeOutcome t job path)
    if job.inPlace then replaceInputs t os
    else deliver t os job.out ("\n".intercalate os.results)

/-- Models as text: nothing, one model, or a list of them. -/
def modelText : List Declaration → String
  | [] => ""
  | [d] => d.toJson
  | ds => Declaration.listToJson ds

/-- The run of a job of writing models. -/
def ModelJob.run (job : ModelJob) (t : Tree) : Result :=
  match sources t job.inputs job.out with
  | .error failure => { tree := t, failure := some failure }
  | .ok paths =>
    let os : Outcomes Declaration := paths.map fun path => (path, modelOutcome t path)
    deliver t os job.out (modelText os.results)

/-- Nothing is to be done. -/
def Job.noOp : Job → Bool
  | .dart job => job.noOp
  | .model job => job.noOp

/-- The run of a job. -/
def Job.run : Job → Tree → Result
  | .dart job, t => job.run t
  | .model job, t => job.run t

/-- The run of an invocation: `CommandLineInterface::run`. -/
def Invocation.run (i : Invocation) (t : Tree) : Result :=
  if i.job.noOp then { tree := t, messages := [i.shown] } else i.job.run t

end DartUnion.Command
