import DartUnion.Files.Tree

/-!
# Access to a tree by path

A path is followed segment by segment. Each segment asks for a directory to start from, so `file/.`
is refused although `.` leads nowhere, and so is `missing/..`. The operations differ only in what
they ask of the last segment: reading wants it to be there, writing wants its directory to be there
and no directory in its place, and a new directory wants the place to be free.

* `Tree.locate` is the place that a path leads to.
* `Tree.read` and `Tree.write` are about the text of a file.
* `Tree.makeDirectories` makes a directory with everything that holds it.
-/

namespace DartUnion.Files

/-- Why an operation on a path fails. -/
inductive FileFault where
  | notFound
  | alreadyThere
  | notDirectory
  | isDirectory
  | nameTooLong
  | nulInPath
  | notText
  deriving Repr, DecidableEq

/-- The wording of a fault. -/
def FileFault.message : FileFault → String
  | .notFound => "No such file or directory (os error 2)"
  | .alreadyThere => "File exists (os error 17)"
  | .notDirectory => "Not a directory (os error 20)"
  | .isDirectory => "Is a directory (os error 21)"
  | .nameTooLong => "File name too long (os error 36)"
  | .nulInPath => "file name contained an unexpected NUL byte"
  | .notText => "stream did not contain valid UTF-8"

namespace Tree

/-! ## Following a path -/

/-- The place that holds `place`; the root holds itself. -/
def above (place : Place) : Place :=
  if place = ["/"] then place
  else if place.all (· == "..") then place ++ [".."]
  else place.dropLast

/-- The longest name that a directory can hold, in bytes. -/
def maxNameBytes : Nat := 255

/-- The longest path that can be followed, in bytes. -/
def maxPathBytes : Nat := 4095

/-- Follow one segment. -/
def step (t : Tree) (place : Place) (word : String) : Except FileFault Place :=
  if !t.isDirectoryAt place then .error .notDirectory
  else if staysPut word then .ok place
  else if word = ".." then .ok (above place)
  else if word.utf8ByteSize > maxNameBytes then .error .nameTooLong
  else if (t.node? (place ++ [word])).isSome then .ok (place ++ [word])
  else .error .notFound

/-- Where a path starts from. -/
def start (path : String) : Place := if isAbsolute path then ["/"] else []

/-- Refuses what is no path at all. -/
def checkPath (path : String) : Except FileFault Unit :=
  if path.toList.contains '\x00' then .error .nulInPath
  else if path = "" then .error .notFound
  else if path.utf8ByteSize > maxPathBytes then .error .nameTooLong
  else .ok ()

/-- The place that a path leads to, where something is. -/
def locate (t : Tree) (path : String) : Except FileFault Place := do
  checkPath path
  (segments path).foldlM t.step (start path)

/-- The path leads to something. -/
def leads (t : Tree) (path : String) : Bool := (t.locate path).toBool

/-- The path leads to a directory. -/
def isDirectory (t : Tree) (path : String) : Bool :=
  match t.locate path with
  | .ok place => t.isDirectoryAt place
  | .error _ => false

/-- The last segment of a path and those in front of it. Slashes at the end of the path are told
apart from it. -/
structure Split where
  front : List String
  last : String
  slashBehind : Bool

/-- A path in front of its last segment and from there. -/
def split (path : String) : Split :=
  let words := segments path
  let kept := (words.reverse.dropWhile (· == "")).reverse
  ⟨kept.dropLast, kept.getLast?.getD "", kept.length < words.length⟩

/-- The directory that a path leads to in front of its last segment. -/
def locateFront (t : Tree) (path : String) : Except FileFault Place := do
  checkPath path
  let place ← (split path).front.foldlM t.step (start path)
  if t.isDirectoryAt place then return place else throw .notDirectory

/-- The word leads to a directory whatever is there. -/
def isDots (word : String) : Bool := staysPut word || word == ".."

/-! ## Operations -/

/-- The text of a file. -/
def read (t : Tree) (path : String) : Except FileFault String := do
  match t.node? (← t.locate path) with
  | some (.file (.text s)) => return s
  | some (.file (.binary _)) => throw .notText
  | some .directory => throw .isDirectory
  | none => throw .notFound

/-- The tree with `text` in a file, which need not be there before. -/
def write (t : Tree) (path text : String) : Except FileFault Tree := do
  let place ← t.locateFront path
  let last := (split path).last
  if (split path).slashBehind || isDots last then throw .isDirectory
  else if last.utf8ByteSize > maxNameBytes then throw .nameTooLong
  else if t.isDirectoryAt (place ++ [last]) then throw .isDirectory
  else return t.put (place ++ [last]) (.file (.text text))

/-- The tree with a new directory. -/
def makeDirectory (t : Tree) (path : String) : Except FileFault Tree := do
  let place ← t.locateFront path
  let last := (split path).last
  if isDots last then throw .alreadyThere
  else if last.utf8ByteSize > maxNameBytes then throw .nameTooLong
  else if (t.node? (place ++ [last])).isSome then throw .alreadyThere
  else return t.put (place ++ [last]) .directory

/-- A new directory at a path, or the fault when there is none afterwards. -/
def ensureDirectory (t : Tree) (path : String) : Tree × Option FileFault :=
  match t.makeDirectory path with
  | .ok t => (t, none)
  | .error fault => (t, if t.isDirectory path then none else some fault)

/-- Makes the first of the paths a directory, after those behind it where they are missing. What was
made before a fault stays. -/
def makeEach (t : Tree) : List String → Tree × Option FileFault
  | [] => (t, none)
  | path :: paths =>
    if path = "" then (t, none)
    else
      match t.ensureDirectory path with
      | (_, some .notFound) =>
        match t.makeEach paths with
        | (t, none) => t.ensureDirectory path
        | (t, some fault) => (t, some fault)
      | made => made

/-- A path and those that hold it, innermost first, as far as `fuel` goes. -/
def holdersWithin : Nat → String → List String
  | 0, _ => []
  | fuel + 1, path => path :: (parent? path).elim [] (holdersWithin fuel)

/-- A path and those that hold it, innermost first; each has fewer segments than the one before. -/
def holders (path : String) : List String := holdersWithin (segments path).length.succ path

/-- Makes a path a directory, with everything that holds it. -/
def makeDirectories (t : Tree) (path : String) : Tree × Option FileFault :=
  t.makeEach (holders path)

end Tree

end DartUnion.Files
