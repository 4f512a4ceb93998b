/-!
# Paths as text

A path is text, and its segments are what stands between the slashes. An empty segment and the
segment `.` lead nowhere, so at the end of a path they say nothing about where it leads; in front
they do, since an empty first segment makes the path absolute and `.` names the current directory.

* `segments` cuts a path into its segments, and `ofSegments` puts them together again.
* `ofSegments_segments`: nothing is lost by cutting; `slash_not_mem_of_mem_segments`: the cutting is
  complete.
* `parent?` is the path in front of the last segment that counts.
-/

namespace DartUnion.Files

/-- The segments of a path, the empty ones included. -/
def segments (path : String) : List String := (path.toList.splitOn '/').map String.ofList

/-- The path with the given segments. -/
def ofSegments (words : List String) : String :=
  String.ofList (['/'].intercalate (words.map String.toList))

/-- Cutting a path into segments loses nothing. -/
theorem ofSegments_segments (path : String) : ofSegments (segments path) = path := by
  simp [ofSegments, segments, Function.comp_def]

/-- What stands between slashes holds none. -/
theorem slash_not_mem_of_mem_splitOn {s w : List Char} (h : w ∈ s.splitOn '/') : '/' ∉ w := by
  induction s generalizing w with
  | nil =>
    rw [List.splitOn_nil, List.mem_singleton] at h
    rw [h]
    exact List.not_mem_nil
  | cons c s ih =>
    rw [List.splitOn_cons_eq_if_modifyHead] at h
    split at h
    · rcases List.mem_cons.1 h with rfl | h
      · exact List.not_mem_nil
      · exact ih h
    · next hc =>
      have hc : ¬ '/' = c := fun he => hc (he ▸ beq_self_eq_true '/')
      cases hs : s.splitOn '/' with
      | nil => exact absurd hs (List.splitOn_ne_nil _ _)
      | cons v vs =>
        rw [hs, List.modifyHead_cons] at h
        rw [hs] at ih
        rcases List.mem_cons.1 h with rfl | h
        · rw [List.mem_cons, not_or]
          exact ⟨hc, ih List.mem_cons_self⟩
        · exact ih (List.mem_cons_of_mem v h)

/-- A segment holds no slash. -/
theorem slash_not_mem_of_mem_segments {path word : String} (h : word ∈ segments path) :
    '/' ∉ word.toList := by
  obtain ⟨w, hw, rfl⟩ := List.mem_map.1 h
  rw [String.toList_ofList]
  exact slash_not_mem_of_mem_splitOn hw

/-- The segment leads nowhere. -/
def staysPut (word : String) : Bool := word == "" || word == "."

/-- The path starts at the root. -/
def isAbsolute (path : String) : Bool := path.startsWith "/"

/-- The segments without the idle ones at the end; the first one is kept whatever it is. -/
def trimmed : List String → List String
  | [] => []
  | word :: words => word :: (words.reverse.dropWhile staysPut).reverse

/-- The path that trimmed segments stand for; a lone empty one is the root. -/
def ofTrimmed (words : List String) : String := if words = [""] then "/" else ofSegments words

/-- The path of what holds the thing at `path`. The root and the empty path are held by nothing; a
single word is held by the empty path. -/
def parent? (path : String) : Option String :=
  let words := trimmed (segments path)
  if words = [""] then none else some (ofTrimmed (trimmed words.dropLast))

/-- The path of something called `name` within `path`. -/
def join (path name : String) : String :=
  if path = "" || path.endsWith "/" then path ++ name else path ++ "/" ++ name

/-- The path is the current directory, written as such. -/
def isCurrent (path : String) : Bool := trimmed (segments path) = ["."]

end DartUnion.Files
