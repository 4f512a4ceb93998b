import DartUnion.Command.Footprint
import DartUnion.Command.Setting

/-!
# The command line

Reads the files that a run looks at into a tree, runs, and carries out what the run changed. Nothing
is decided here.
-/

namespace DartUnion.Command

open Files

/-- The path leads to a directory. -/
def isDirectoryHere (path : String) : IO Bool := do
  try (← IO.FS.realPath path).isDir catch _ => return false

/-- The names in a directory. -/
def namesHere (path : String) : IO (List String) := do
  try return (← (← IO.FS.realPath path).readDir).toList.map (·.fileName) catch _ => return []

/-- The content of a file, or nothing where there is no file that can be read. -/
def contentHere (path : String) : IO (Option Content) := do
  try return some (.ofBytes (← IO.FS.readBinFile path)) catch _ => return none

/-- The tree with what is at a place and on as many levels below it as asked for. Files are taken as
empty. -/
def loadShape : Nat → Tree → Place → IO Tree
  | depth, t, place => do
    let path := pathOf place
    if ← isDirectoryHere path then
      let t := t.plant place none
      match depth with
      | 0 => return t
      | depth + 1 => (← namesHere path).foldlM (fun t name => loadShape depth t (place ++ [name])) t
    else
      match ← contentHere path with
      | some _ => return t.plant place (some (.text ""))
      | none => return t

/-- The tree with the content of the file at a place. -/
def loadContent (t : Tree) (place : Place) : IO Tree := do
  if t.isDirectoryAt place then return t
  else
    match ← contentHere (pathOf place) with
    | some content => return t.plant place (some content)
    | none => return t

/-- The files that a job looks at. -/
def load (job : Job) : IO Tree := do
  let shape ← job.looks.foldlM (fun t look => loadShape look.depth t look.place) {}
  (job.reads shape).foldlM loadContent shape

/-- Carries out a change. -/
def carryOut : Place × Node → IO Unit
  | (place, .directory) => IO.FS.createDirAll (pathOf place)
  | (place, .file (.text text)) => IO.FS.writeFile (pathOf place) text
  | (place, .file (.binary bytes)) => IO.FS.writeBinFile (pathOf place) ⟨bytes.toArray⟩

/-- Runs a command line that is in order. -/
def perform (i : Invocation) : IO UInt32 := do
  let t ← load i.job
  let r := i.run t
  (changes t r.tree).forM carryOut
  IO.print r.output
  IO.eprint r.messageText
  match r.failure with
  | none => return 0
  | some failure =>
    IO.eprintln ("error: " ++ failure.message)
    return 1

end DartUnion.Command

open DartUnion.Command

/-- Runs the command line and gives the exit code: 0, 1 for a run that fails, 2 for a command line
that is refused. -/
def main (args : List String) : IO UInt32 := do
  match Invocation.ofWords args with
  | .ok i => perform i
  | .error .help =>
    IO.println usage
    return 0
  | .error e =>
    IO.eprintln ("error: " ++ e.message ++ "\n" ++ usage)
    return 2
