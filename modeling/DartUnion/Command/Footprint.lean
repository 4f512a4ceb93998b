import DartUnion.Command.Run

/-!
# The files that a run looks at

A run only looks at some of the files: at its inputs, at the place of its output, at what stands on
the way there, and for a pattern at what is below the last segment in front of its special characters.
A `Look` is a place with the number of levels below it that matter, so a tree that holds what the
looks of a job cover serves the job as well as one that holds everything. What a run changed is found
by comparing the trees before and after it.

* `Job.looks` is what a job looks at before it knows its inputs.
* `changes` are the entries that a run made or changed.
-/

namespace DartUnion.Command

open Files

/-- A place and the number of levels below it that matter. -/
structure Look where
  place : Place
  depth : Nat := 0
  deriving Repr, DecidableEq

/-- The place that a segment leads to, whether or not anything is there. -/
def stepBlindly (place : Place) (word : String) : Place :=
  if staysPut word then place else if word = ".." then Tree.above place else place ++ [word]

/-- A look at each place on the way along `words` from a place on. -/
def looksAlong (place : Place) : List String → List Look
  | [] => [⟨place, 0⟩]
  | word :: words => ⟨place, 0⟩ :: looksAlong (stepBlindly place word) words

/-- The looks that following a path takes. -/
def looksAt (path : String) : List Look := looksAlong (Tree.start path) (segments path)

/-- How far down `**` goes. -/
def maxDepth : Nat := 64

/-- The looks that a search takes from a place on. -/
def looksOfSearch (place : Place) : List Pattern → List Look
  | [] => [⟨place, 0⟩]
  | p :: rest =>
    match p.literal? with
    | some word => ⟨place, 0⟩ :: looksOfSearch (stepBlindly place (String.ofList word)) rest
    | none => [⟨place, if (p :: rest).any Pattern.isDeep then maxDepth else rest.length + 1⟩]

/-- The looks that resolving an input takes. -/
def looksOfInput (name : String) : List Look :=
  if isGlob name then
    match Glob.ofText name with
    | .ok g => looksOfSearch (Tree.start g.scope) g.segments
    | .error _ => []
  else looksAt name

/-- The inputs of a job. -/
def Job.inputs : Job → List String
  | .dart job => job.inputs
  | .model job => job.inputs

/-- The file that a job writes to. -/
def Job.out : Job → Option String
  | .dart job => job.out
  | .model job => job.out

/-- The looks of a job. -/
def Job.looks (job : Job) : List Look :=
  job.inputs.flatMap looksOfInput ++ job.out.toList.flatMap looksAt

/-- The places whose content a job reads, once `t` shows what is where. -/
def Job.reads (job : Job) (t : Tree) : List Place :=
  match sources t job.inputs job.out with
  | .ok paths => paths.filterMap fun path => (t.locate path).toOption
  | .error _ => []

/-- The entries of `after` that `before` lacks, those that hold others in front of them. -/
def changes (before after : Tree) : List (Place × Node) :=
  (after.entries.filter fun e => before.node? e.1 ≠ some e.2).mergeSort fun a b => !decide (b.1 < a.1)

/-- The path of a place. -/
def pathOf : Place → String
  | [] => "."
  | "/" :: words => "/" ++ ofSegments words
  | words => ofSegments words

end DartUnion.Command
