import DartUnion.Files.Access
import DartUnion.Files.Pattern

/-!
# Paths that a pattern stands for

A path with special characters is a pattern segment by segment. A segment without special characters
is followed as it is; the others choose among the names of a directory, which are tried in order. A
segment `**` stands for everything below a directory, each directory in front of what it holds, and at
the end of a pattern for the directories alone. The entries `.` and `..` are only chosen by a segment
that starts with a dot. A slash at the end of a pattern asks for directories.

* `Glob.ofText` reads a pattern of paths.
* `Glob.paths` are the paths that it stands for in a tree.
* `isGlob` is `has_glob_chars`.
* `resolve` (`resolve_file_path_patterns`) turns names and patterns into paths, in the order in which
  they are given.
-/

namespace DartUnion.Files

/-- A pattern of paths: where the search starts, a pattern for each segment, and whether only
directories count. -/
structure Glob where
  scope : String
  segments : List Pattern
  directoriesOnly : Bool
  deriving Repr

/-- The path holds a special character. -/
def isGlob (path : String) : Bool := path.toList.any fun c => c == '*' || c == '?' || c == '['

namespace Glob

/-- The segments of a pattern; the end of the pattern may be a slash. -/
def patternSegments (text : String) : List String :=
  let words := Files.segments text
  if words.getLast? = some "" then words.dropLast else words

/-- One `**` in place of several in a row. -/
def collapse : List Pattern → List Pattern
  | p :: q :: rest =>
    if p.isDeep && q.isDeep then collapse (q :: rest) else p :: collapse (q :: rest)
  | ps => ps

/-- Reads a pattern of paths. The whole of it has to be in order before its segments are looked
at. -/
def ofText (text : String) : Except PatternFault Glob := do
  let _ ← Pattern.ofText text
  let words := patternSegments (if isAbsolute text then String.ofList text.toList.tail else text)
  return {
    scope := if isAbsolute text then "/" else "."
    segments := collapse (← words.mapM Pattern.ofText)
    directoriesOnly := text.endsWith "/" }

/-- The path of something in a directory; the current directory goes without saying. -/
def within (path name : String) : String := if isCurrent path then name else join path name

/-- The path leads somewhere when `word` is added to it. -/
def isThere (t : Tree) (path word : String) : Bool :=
  if word == "." || word == ".." then t.isDirectory path else t.leads (within path word)

/-- The names in the directory at a path. -/
def namesAt (t : Tree) (path : String) : List String :=
  match t.locate path with
  | .ok place => t.names place
  | .error _ => []

/-- What is below the directory at a path, by the names that lead there, each directory in front of
what it holds. -/
def below (t : Tree) (path : String) : List Place :=
  match t.locate path with
  | .ok place =>
    (t.entries.filterMap fun e =>
      if place.isPrefixOf e.1 && e.1 ≠ place then some (e.1.drop place.length) else none).mergeSort
        fun a b => !decide (b < a)
  | .error _ => []

/-- The entries `..` and `.`, as far as a segment chooses them. -/
def dots (p : Pattern) : List String :=
  if p.head? = some (.char '.') then ["..", "."].filter p.accepts else []

/-- The paths that the segments stand for from a path on. -/
def pathsFrom (t : Tree) : List Pattern → String → List String
  | [], path => [path]
  | p :: rest, path =>
    match p.literal? with
    | some word =>
      if isThere t path (String.ofList word) then
        pathsFrom t rest (within path (String.ofList word))
      else []
    | none =>
      if !t.isDirectory path then []
      else if p.isDeep then
        match rest with
        | [] => ((below t path).map (·.foldl within path)).filter t.isDirectory
        | q :: rest =>
          (below t path).flatMap fun names =>
            if names.getLast?.any q.accepts then pathsFrom t rest (names.foldl within path) else []
      else
        ((dots p).flatMap fun word => pathsFrom t rest (join path word)) ++
          ((namesAt t path).filter p.accepts).flatMap fun name => pathsFrom t rest (within path name)

/-- The paths that a pattern stands for. -/
def paths (g : Glob) (t : Tree) : List String :=
  (pathsFrom t g.segments g.scope).filter fun path => !g.directoriesOnly || t.isDirectory path

end Glob

/-- Why the inputs cannot be told. -/
inductive ResolveFault where
  | badPattern (fault : PatternFault)
  | noMatch (pattern : String)
  deriving Repr, DecidableEq

/-- The wording of a fault. -/
def ResolveFault.message : ResolveFault → String
  | .badPattern fault => fault.message
  | .noMatch pattern => "glob pattern matched no files: " ++ pattern

/-- The paths that a name or pattern stands for. A name stands for itself, whether or not it leads
anywhere; a pattern has to stand for something. -/
def resolveOne (t : Tree) (name : String) : Except ResolveFault (List String) :=
  if isGlob name then
    match Glob.ofText name with
    | .error fault => .error (.badPattern fault)
    | .ok g =>
      match g.paths t with
      | [] => .error (.noMatch name)
      | paths => .ok paths
  else .ok [name]

/-- The paths that names and patterns stand for: `resolve_file_path_patterns`. -/
def resolve (t : Tree) (names : List String) : Except ResolveFault (List String) :=
  List.flatten <$> names.mapM (resolveOne t)

end DartUnion.Files
