import DartUnion.Files.Path

/-!
# A tree of files

A `Place` says where something is, seen from the current directory: the names that lead down to it.
Places under the root begin with the name `/`, and places above the current directory with `..`. A
tree holds what is at each place; the current directory, the root and everything above the current
directory are directories without being listed.

* `Tree.node?` is what stands at a place, and `Tree.put` changes it.
* `node?_put`: a change is seen at its place and nowhere else.
* `Tree.ofList` and `Tree.toList` go between a tree and a list of paths with contents.
-/

namespace DartUnion.Files

/-- Where something is: the names on the way from the current directory. -/
abbrev Place := List String

/-- What a file holds: text, or bytes that are no text. -/
inductive Content where
  | text (text : String)
  | binary (bytes : List UInt8)
  deriving Repr, DecidableEq

/-- The content that bytes stand for. -/
def Content.ofBytes (bytes : ByteArray) : Content :=
  match String.fromUTF8? bytes with
  | some s => .text s
  | none => .binary bytes.toList

/-- What stands at a place. -/
inductive Node where
  | file (content : Content)
  | directory
  deriving Repr, DecidableEq

/-- What is at which place; every place has at most one entry. -/
structure Tree where
  entries : List (Place × Node) := []
  deriving Repr, Inhabited

namespace Tree

/-- A directory that is there without being listed. -/
def isImplied (place : Place) : Bool := place == ["/"] || place.all (· == "..")

/-- What is at a place. -/
def node? (t : Tree) (place : Place) : Option Node :=
  if isImplied place then some .directory else t.entries.lookup place

/-- The tree with `node` at `place`, whatever was there before. -/
def put (t : Tree) (place : Place) (node : Node) : Tree :=
  ⟨(place, node) :: t.entries.filter (·.1 != place)⟩

/-- Dropping the entry of a place leaves every other place as it is. -/
theorem lookup_filter_ne (entries : List (Place × Node)) {place other : Place}
    (h : other ≠ place) :
    (entries.filter (·.1 != place)).lookup other = entries.lookup other := by
  induction entries with
  | nil => rfl
  | cons e entries ih =>
    obtain ⟨key, node⟩ := e
    by_cases hk : key = place
    · simp [hk, ih, List.lookup_cons, beq_false_of_ne h]
    · simp [hk, ih, List.lookup_cons]

/-- A change is seen at its place and nowhere else. -/
theorem node?_put (t : Tree) (place other : Place) (node : Node) (h : isImplied place = false) :
    (t.put place node).node? other = if other = place then some node else t.node? other := by
  unfold node? put
  by_cases ho : other = place
  · subst ho
    simp [h]
  · simp only [ho, if_false, List.lookup_cons, beq_false_of_ne ho, lookup_filter_ne _ ho]

/-- There is a directory at the place. -/
def isDirectoryAt (t : Tree) (place : Place) : Bool := t.node? place == some .directory

/-- The names of what a directory holds, in order. -/
def names (t : Tree) (place : Place) : List String :=
  (t.entries.filterMap fun e => if e.1.dropLast = place then e.1.getLast? else none).mergeSort
    fun a b => a ≤ b

/-! ## Trees and lists -/

/-- The tree with a directory at `place`, unless something is there. -/
def putDirectory (t : Tree) (place : Place) : Tree :=
  if (t.node? place).isSome then t else t.put place .directory

/-- The tree with a file, or with a directory where no content is given, and with the directories
that hold it. -/
def plant (t : Tree) (place : Place) (content : Option Content) : Tree :=
  let held := (List.range place.length).foldl (fun (t : Tree) n => t.putDirectory (place.take n)) t
  match content with
  | some content => held.put place (.file content)
  | none => held.putDirectory place

/-- The tree of the given files and directories. -/
def ofList (files : List (String × Option Content)) : Tree :=
  files.foldl (fun t file => t.plant ((segments file.1).filter (!staysPut ·)) file.2) {}

/-- An entry below the current directory with its path; that of a directory ends in a slash. -/
def listed? : Place × Node → Option (String × Option Content)
  | (place, node) =>
    if place.head?.all fun word => word == "/" || word == ".." then none
    else
      match node with
      | .file content => some (ofSegments place, some content)
      | .directory => some (ofSegments place ++ "/", none)

/-- Everything below the current directory, by path. -/
def toList (t : Tree) : List (String × Option Content) :=
  (t.entries.filterMap listed?).mergeSort fun a b => a.1 ≤ b.1

end Tree

end DartUnion.Files
