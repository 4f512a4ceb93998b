import DartUnion.Command.Reading
import DartUnion.Output.Basic

/-!
# Invocations

An invocation is a command line in order: how many messages are wanted, and a job. In front of the
command there may be common settings; what is counted behind the command wins over what is counted in
front of it. Settings that contradict each other are refused before a missing input is noticed.

* `DartJob` and `ModelJob` hold what `DartOut` and `ModelOut` hold; `Given.options` is `gen_options`.
* `Invocation.ofWords` is the invocation (`CommandLineInterface`) that the words of a command line stand
  for.
-/

namespace DartUnion.Command

/-- Code is to be generated. -/
structure DartJob where
  inputs : List String
  fromModel : Bool := false
  out : Option String := none
  inPlace : Bool := false
  options : Output.Options := {}
  noOp : Bool := false
  deriving Repr, DecidableEq

/-- Models are to be written. -/
structure ModelJob where
  inputs : List String
  out : Option String := none
  noOp : Bool := false
  deriving Repr, DecidableEq

/-- What is to be done. -/
inductive Job where
  | dart (job : DartJob)
  | model (job : ModelJob)
  deriving Repr, DecidableEq

/-- A command line in order. -/
structure Invocation where
  verbose : Nat
  job : Job
  deriving Repr, DecidableEq

/-- The settings contradict each other. -/
def Given.isContradictory (g : Given) : Bool :=
  g.has .inPlace && (g.has .out || g.has .fromModel)

/-- The fallback that was chosen. -/
def Given.fallback (g : Given) : Output.Fallback :=
  if (g.values .fallback).head? = some "throw" then .throwError else .firstVariant

/-- The options of the generated code. -/
def Given.options (g : Given) : Output.Options where
  equatableImport := !g.has .noImport
  fromString := !g.has .noFromString
  fallback := g.fallback
  helperSuffix := (g.values .helperSuffix).head?.getD "Helper"

/-- The job that the settings of a command describe. -/
def Given.job (g : Given) : Kind → Job
  | .dart => .dart {
      inputs := g.values .input
      fromModel := g.has .fromModel
      out := (g.values .out).head?
      inPlace := g.has .inPlace
      options := g.options
      noOp := g.has .noOp }
  | .model => .model {
      inputs := g.values .input
      out := (g.values .out).head?
      noOp := g.has .noOp }

/-- Messages are counted up to this number. -/
def maxVerbose : Nat := 255

namespace Invocation

/-- The command line of a command, `outer` being the settings in front of it. -/
def ofCommand (outer : Given) (kind : Kind) (words : List String) :
    Except UsageError Invocation := do
  let inner ← readWords kind.settings {} words
  if inner.isContradictory then throw .conflict
  else if !inner.has .input then throw .missingInput
  else
    let count := if inner.has .verbose then inner.count .verbose else outer.count .verbose
    return { verbose := min count maxVerbose, job := inner.job kind }

/-- What the words behind `help` ask for: help on a command, if on anything. -/
def helpError : List String → UsageError
  | [] => .help
  | [word] => if word = "help" || (Kind.ofWord? word).isSome then .help else .unknownCommand
  | _ => .unknownCommand

/-- What is wrong when no command is named. -/
def noCommand (outer : Given) : UsageError :=
  if outer.isEmpty then .nothingGiven else .missingCommand

/-- The word would start a command. -/
def isCommandWord (word : String) : Bool := word == "help" || (Kind.ofWord? word).isSome

/-- Reads a command line behind the settings `outer`. -/
def readFrom (outer : Given) : List String → Except UsageError Invocation
  | [] => .error (noCommand outer)
  | text :: words =>
    match Kind.ofWord? text with
    | some kind => ofCommand outer kind words
    | none =>
      if text = "help" then .error (helpError words)
      else if text = "--" then
        match words with
        | [] => .error (noCommand outer)
        | word :: _ => .error (if isCommandWord word then .unknownArgument else .unknownCommand)
      else if text.startsWith "-" && text ≠ "-" then do
        let r ← Reading.word commonSettings { given := outer } text
        readFrom r.given words
      else .error .unknownCommand

/-- The invocation that the words of a command line stand for. -/
def ofWords (words : List String) : Except UsageError Invocation := readFrom [] words

end Invocation

end DartUnion.Command
