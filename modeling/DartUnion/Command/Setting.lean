/-!
# Settings of the command line

A setting is given by its word behind two hyphens or by its letter behind one. It takes nothing, one
value, or as many values as follow. Inputs add up and the wish for more messages is counted; every
other setting may be given once.

There are two commands, `Dart` for generated code and `Model` for models, and each has settings of its
own: the fields of `DartOut` and of `ModelOut`.

* `Setting` and `Kind.settings` are these fields, `UsageError` why a command line is refused.
* `usage` and `UsageError.message` are what is printed when there is nothing to run.
-/

namespace DartUnion.Command

/-- Why the words of a command line are refused. Asking for help is one of the reasons. -/
inductive UsageError where
  | help
  | nothingGiven
  | unknownArgument
  | badValue
  | unknownCommand
  | missingCommand
  | missingInput
  | conflict
  | valueNotTaken
  deriving Repr, DecidableEq

/-- How many values a setting takes. -/
inductive Takes where
  | nothing
  | one
  | several
  deriving Repr, DecidableEq

/-- What can be set. -/
inductive Setting where
  | input
  | out
  | fallback
  | helperSuffix
  | fromModel
  | inPlace
  | noImport
  | noFromString
  | noOp
  | verbose
  | help
  deriving Repr, DecidableEq

namespace Setting

/-- The word of a setting. -/
def word : Setting → String
  | .input => "input"
  | .out => "out"
  | .fallback => "fallback"
  | .helperSuffix => "helper-suffix"
  | .fromModel => "from-model"
  | .inPlace => "in-place"
  | .noImport => "no-import"
  | .noFromString => "no-from-string"
  | .noOp => "no-op"
  | .verbose => "verbose"
  | .help => "help"

/-- The letter of a setting, where it has one. -/
def letter? : Setting → Option Char
  | .input => some 'i'
  | .out => some 'o'
  | .verbose => some 'v'
  | .help => some 'h'
  | _ => none

/-- How many values a setting takes. -/
def takes : Setting → Takes
  | .input => .several
  | .out | .fallback | .helperSuffix => .one
  | _ => .nothing

/-- The setting may be given again. -/
def isRepeatable (s : Setting) : Bool := s == .input || s == .verbose

/-- The text is a value of the setting. -/
def allows : Setting → String → Bool
  | .out, value => value != ""
  | .fallback, value => value == "first" || value == "throw"
  | _, _ => true

end Setting

/-- What is to be done with the inputs. -/
inductive Kind where
  | dart
  | model
  deriving Repr, DecidableEq

/-- The word of a command. -/
def Kind.word : Kind → String
  | .dart => "dart"
  | .model => "model"

/-- The command with a given word. -/
def Kind.ofWord? (word : String) : Option Kind := [dart, model].find? (·.word == word)

/-- The settings of a command. -/
def Kind.settings : Kind → List Setting
  | .dart => [.input, .fromModel, .out, .inPlace, .noImport, .noFromString, .fallback, .helperSuffix,
      .noOp, .verbose, .help]
  | .model => [.input, .out, .noOp, .verbose, .help]

/-- The settings in front of the command. -/
def commonSettings : List Setting := [.verbose, .help]

/-! ## What is printed in place of a run -/

/-- How the program is called. -/
def usage : String :=
  "usage: dart-union [-v...] dart -i INPUT... [-o FILE | --in-place] [--from-model] [--no-import]\n" ++
  "                  [--no-from-string] [--fallback first|throw] [--helper-suffix SUFFIX] [--no-op]\n" ++
  "       dart-union [-v...] model -i INPUT... [-o FILE] [--no-op]"

/-- The wording of an error. -/
def UsageError.message : UsageError → String
  | .help => "help"
  | .nothingGiven => "nothing given"
  | .unknownArgument => "unknown argument"
  | .badValue => "a value is missing or not allowed"
  | .unknownCommand => "unknown command"
  | .missingCommand => "no command given"
  | .missingInput => "no input given"
  | .conflict => "arguments that exclude each other"
  | .valueNotTaken => "a value where none is taken"

end DartUnion.Command
