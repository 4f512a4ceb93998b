import DartUnion.Command.Setting

/-!
# Reading the words of a command

Words are read from left to right. A word that names a setting which takes values leaves it waiting,
and the words that follow are its values as long as they name nothing themselves. The waiting setting
is settled as soon as the next one is named or the words end; only then is it found out that a value
is missing or wrong. A value can also be attached, as in `--out=x`, `-ox` and `-o=x`, and then the
setting waits for no more. A word that makes no sense is refused at once, whatever waits.

* `readWords` reads the words of a command.
-/

namespace DartUnion.Command

/-- Settings with their values. -/
abbrev Given := List (Setting × List String)

/-- The setting was given. -/
def Given.has (g : Given) (s : Setting) : Bool := g.any (·.1 == s)

/-- All values of a setting. -/
def Given.values (g : Given) (s : Setting) : List String :=
  g.flatMap fun entry => if entry.1 = s then entry.2 else []

/-- How often a setting was given. -/
def Given.count (g : Given) (s : Setting) : Nat := g.countP (·.1 == s)

/-- One more setting with its values. -/
def Given.add (g : Given) (s : Setting) (values : List String) : Except UsageError Given :=
  if s.takes ≠ .nothing && values.isEmpty then .error .badValue
  else if g.has s && !s.isRepeatable then .error .conflict
  else if !values.all s.allows then .error .badValue
  else if s = .help then .error .help
  else .ok (g ++ [(s, values)])

/-- What has been read: the settings that are settled, and the one that waits for values. -/
structure Reading where
  given : Given := []
  waiting : Option (Setting × List String) := none

namespace Reading

/-- Settles what waits. -/
def settle (r : Reading) : Except UsageError Given :=
  match r.waiting with
  | some (s, values) => r.given.add s values
  | none => .ok r.given

/-- A setting with all its values. -/
def complete (r : Reading) (s : Setting) (values : List String) : Except UsageError Reading := do
  return { given := ← (← r.settle).add s values }

/-- A setting whose values may follow. -/
def await (r : Reading) (s : Setting) : Except UsageError Reading := do
  return { given := ← r.settle, waiting := some (s, []) }

/-- A setting named without an attached value. -/
def name (r : Reading) (s : Setting) : Except UsageError Reading :=
  if s.takes = .nothing then r.complete s [] else r.await s

/-- The text in front of the first `=`, and the text behind it where there is one. -/
def atEquals : List Char → List Char × Option (List Char)
  | [] => ([], none)
  | '=' :: s => ([], some s)
  | c :: s => ((atEquals s).map (c :: ·) id)

/-- A setting by its word, from behind the hyphens. -/
def longWord (known : List Setting) (r : Reading) (text : List Char) :
    Except UsageError Reading :=
  let (word, value?) := atEquals text
  match known.find? (·.word == String.ofList word), value? with
  | none, _ => .error .unknownArgument
  | some s, none => r.name s
  | some s, some value =>
    if s.takes = .nothing then .error .valueNotTaken else r.complete s [String.ofList value]

/-- An attached value may follow an equals sign. -/
def attached : List Char → List Char
  | '=' :: s => s
  | s => s

/-- Settings by their letters, from behind the hyphen. -/
def letters (known : List Setting) (r : Reading) : List Char → Except UsageError Reading
  | [] => .ok r
  | c :: s =>
    match known.find? (·.letter? == some c) with
    | none => .error .unknownArgument
    | some setting =>
      if setting.takes = .nothing then do letters known (← r.complete setting []) s
      else if s.isEmpty then r.await setting
      else r.complete setting [String.ofList (attached s)]

/-- A word that names nothing is a value of what waits. -/
def plainWord (r : Reading) (word : String) : Except UsageError Reading :=
  match r.waiting with
  | some (s, values) =>
    if s.takes = .several || values.isEmpty then
      .ok { r with waiting := some (s, values ++ [word]) }
    else .error .unknownArgument
  | none => .error .unknownArgument

/-- Reads a word. A single hyphen names nothing. -/
def word (known : List Setting) (r : Reading) (text : String) : Except UsageError Reading :=
  match text.toList with
  | '-' :: '-' :: s => r.longWord known s
  | '-' :: c :: s => r.letters known (c :: s)
  | _ => r.plainWord text

end Reading

/-- Reads the words of a command. Behind `--` nothing can follow. -/
def readWords (known : List Setting) (r : Reading) : List String → Except UsageError Given
  | [] => r.settle
  | text :: words =>
    if text = "--" then if words.isEmpty then r.settle else .error .unknownArgument
    else do readWords known (← r.word known text) words

end DartUnion.Command
