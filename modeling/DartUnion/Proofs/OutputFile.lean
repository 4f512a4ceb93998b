import DartUnion.Command.Run
import DartUnion.Proofs.Following

/-!
# Writing to a file that need not be there

Text is written to a file in directories that are made where they are missing. What leads to the
file leads to its parent first, so where a file already is there is nothing to make, and when the
directories cannot be made there is no way to a file afterwards either. Making directories and
writing only add to what a path can pass through (`Grows`).

* `Tree.file? t path`: what the file holds that the path leads to.

Results:
* `isDirectory_parent`: **what leads somewhere leads to its parent**, and that is a directory.
* `makeDirectories_of_leads`: where the path already leads somewhere nothing is made.
* `not_leads_of_makeDirectories`: when a parent cannot be made, the path leads nowhere.
* `file?_writeFile`, `file?_of_writeFile_failed`: **a file holds what was written to it, or there is
  no file** at this path, neither before nor after.
-/

namespace DartUnion

namespace Files

/-! ## Parents -/

variable {path parent : String}

theorem segments_ne_nil (path : String) : segments path ≠ [] := by
  unfold segments
  rw [Ne, List.map_eq_nil_iff]
  exact List.splitOn_ne_nil _ _

/-- Words without slashes are the segments of the path that they make. -/
theorem segments_ofSegments {words : List String} (hne : words ≠ [])
    (h : ∀ word ∈ words, '/' ∉ word.toList) : segments (ofSegments words) = words := by
  have hmap : ∀ s ∈ words.map String.toList, '/' ∉ s := by
    intro s hs
    obtain ⟨word, hword, rfl⟩ := List.mem_map.1 hs
    exact h word hword
  unfold segments ofSegments
  rw [String.toList_ofList, List.splitOn_intercalate '/' hmap (by simpa using hne), List.map_map]
  simp [Function.comp_def]

/-- Paths are put one behind the other with a slash between them. -/
theorem ofSegments_append {front back : List String} (hf : front ≠ []) (hb : back ≠ []) :
    ofSegments (front ++ back) = ofSegments front ++ ("/" ++ ofSegments back) := by
  obtain ⟨word, back, rfl⟩ := List.exists_cons_of_ne_nil hb
  unfold ofSegments
  rw [← String.toList_inj]
  simp only [String.toList_append, String.toList_ofList]
  induction front with
  | nil => exact absurd rfl hf
  | cons first front ih =>
    cases front with
    | nil => simp [List.intercalate_cons_cons]
    | cons second front =>
      have hrest := ih (List.cons_ne_nil second front)
      simp only [List.cons_append, List.map_cons] at hrest ⊢
      rw [List.intercalate_cons_cons, hrest, List.intercalate_cons_cons]
      simp only [List.append_assoc]

/-- Only idle words are trimmed. -/
theorem trimmed_append (words : List String) :
    ∃ idle, (∀ word ∈ idle, staysPut word = true) ∧ trimmed words ++ idle = words := by
  cases words with
  | nil => exact ⟨[], fun _ h => absurd h List.not_mem_nil, rfl⟩
  | cons word words =>
    refine ⟨(words.reverse.takeWhile staysPut).reverse, fun w hw => ?_, ?_⟩
    · exact List.all_eq_true.1 List.all_takeWhile w (List.mem_reverse.1 hw)
    · rw [trimmed, List.cons_append, ← List.reverse_append, List.takeWhile_append_dropWhile,
        List.reverse_reverse]

/-- **A parent is what stands in front** of the last word that counts, without idle words at its
end. -/
theorem eq_of_parent? (h : parent? path = some parent) (hne : parent ≠ "") :
    ∃ front idle word back, segments path = front ++ (idle ++ word :: back) ∧ front ≠ [] ∧
      (∀ w ∈ idle, staysPut w = true) ∧
      (front = [""] ∧ parent = "/" ∨ front ≠ [""] ∧ parent = ofSegments front) := by
  unfold parent? at h
  simp only at h
  split at h
  · cases h
  · have hparent := Option.some.inj h
    obtain ⟨back, -, hback⟩ := trimmed_append (segments path)
    obtain ⟨idle, hidle, hfront⟩ := trimmed_append (trimmed (segments path)).dropLast
    have hwords : trimmed (segments path) ≠ [] := by
      obtain ⟨first, rest, hs⟩ := List.exists_cons_of_ne_nil (segments_ne_nil path)
      rw [hs]
      exact List.cons_ne_nil _ _
    have hlast := List.dropLast_concat_getLast hwords
    refine ⟨trimmed (trimmed (segments path)).dropLast, idle,
      (trimmed (segments path)).getLast hwords,
      back, ?_, ?_, hidle, ?_⟩
    · rw [← List.append_assoc, hfront, List.append_cons, hlast, hback]
    · intro hnil
      rw [hnil] at hparent
      exact hne hparent.symm
    · rw [← hparent, ofTrimmed]
      split
      · next hroot => exact .inl ⟨hroot, rfl⟩
      · next hroot => exact .inr ⟨hroot, rfl⟩

/-- A path starts with its parent. -/
theorem eq_parent_append (h : parent? path = some parent) (hne : parent ≠ "") :
    ∃ rest, path = parent ++ rest := by
  obtain ⟨front, idle, word, back, hs, hf, -, hparent⟩ := eq_of_parent? h hne
  have hpath := ofSegments_segments path
  rw [hs, ofSegments_append hf (by simp)] at hpath
  rcases hparent with ⟨rfl, rfl⟩ | ⟨-, rfl⟩
  · exact ⟨ofSegments (idle ++ word :: back), hpath.symm⟩
  · exact ⟨_, hpath.symm⟩

theorem isAbsolute_append (hne : parent ≠ "") (rest : String) :
    isAbsolute (parent ++ rest) = isAbsolute parent := by
  have hlist : parent.toList ≠ [] := fun h => hne (by simpa using h)
  obtain ⟨c, s, hs⟩ := List.exists_cons_of_ne_nil hlist
  rw [Bool.eq_iff_iff, isAbsolute, isAbsolute, String.startsWith_string_iff,
    String.startsWith_string_iff, String.toList_append, hs]
  show ['/'] <+: c :: (s ++ rest.toList) ↔ ['/'] <+: c :: s
  simp [List.cons_prefix_cons]

namespace Tree

variable {t u : Tree} {place : Place} {text : String}

theorem checkPath_eq_ok_iff : checkPath path = .ok () ↔
    '\x00' ∉ path.toList ∧ path ≠ "" ∧ path.utf8ByteSize ≤ maxPathBytes := by
  unfold checkPath
  simp only [List.contains_iff_mem]
  by_cases hnul : '\x00' ∈ path.toList
  · simp [hnul]
  · by_cases hempty : path = ""
    · simp [hempty]
    · by_cases hsize : path.utf8ByteSize > maxPathBytes
      · simp [hnul, hempty, hsize]
      · simp [hnul, hempty, hsize]
        omega

theorem checkPath_front (hne : parent ≠ "") {rest : String}
    (h : checkPath (parent ++ rest) = .ok ()) : checkPath parent = .ok () := by
  obtain ⟨hnul, -, hsize⟩ := checkPath_eq_ok_iff.1 h
  rw [String.toList_append, List.mem_append, not_or] at hnul
  rw [String.utf8ByteSize_append] at hsize
  exact checkPath_eq_ok_iff.2 ⟨hnul.1, hne, by omega⟩

/-- Idle words stay where they are. -/
theorem foldlM_idle {words : List String} (h : ∀ word ∈ words, staysPut word = true)
    {next : Place} (hs : words.foldlM t.step place = .ok next) : next = place := by
  induction words with
  | nil => exact (Except.ok.inj hs).symm
  | cons word words ih =>
    rw [List.foldlM_cons] at hs
    obtain ⟨between, hw, hrest⟩ := bind_eq_ok_iff.1 hs
    have hword := h word List.mem_cons_self
    obtain ⟨-, ⟨-, rfl⟩ | ⟨rfl, -⟩ | ⟨hdots, -, -⟩⟩ := step_eq_ok hw
    · exact ih (fun w hw => h w (List.mem_cons_of_mem word hw)) hrest
    · cases hword
    · rw [isDots, hword] at hdots
      cases hdots

/-- **What leads somewhere leads to its parent**, and that is a directory. -/
theorem isDirectory_parent (h : t.locate path = .ok place) (hp : parent? path = some parent)
    (hne : parent ≠ "") : t.isDirectory parent = true := by
  obtain ⟨hc, hwords⟩ := locate_eq_ok h
  obtain ⟨rest, hpath⟩ := eq_parent_append hp hne
  obtain ⟨front, idle, word, back, hs, hf, hidle, hparent⟩ := eq_of_parent? hp hne
  rw [hs, List.foldlM_append] at hwords
  obtain ⟨holder, hfront, hbehind⟩ := bind_eq_ok_iff.1 hwords
  rw [List.foldlM_append] at hbehind
  obtain ⟨same, hsame, hlast⟩ := bind_eq_ok_iff.1 hbehind
  obtain rfl := foldlM_idle hidle hsame
  rw [List.foldlM_cons] at hlast
  obtain ⟨next, hstep, -⟩ := bind_eq_ok_iff.1 hlast
  have hdirectory := (step_eq_ok hstep).1
  have hstart : start path = start parent := by
    rw [start, start, hpath, isAbsolute_append hne]
  rw [hstart] at hfront
  have hfold : (segments parent).foldlM t.step (start parent) = .ok same := by
    rcases hparent with ⟨rfl, rfl⟩ | ⟨-, rfl⟩
    · -- the root is written with an empty segment on either side of its slash
      have hroot : segments "/" = [""] ++ [""] := by decide
      have hstays := foldlM_idle (by decide) hfront
      rw [hroot, List.foldlM_append, hfront]
      rw [← hstays] at hfront
      exact hfront
    · rw [segments_ofSegments hf fun w hw => ?_]
      · exact hfront
      · have hword : w ∈ segments path := by
          rw [hs]
          exact List.mem_append_left _ hw
        exact slash_not_mem_of_mem_segments hword
  have hlocate : t.locate parent = .ok same := by
    rw [hpath] at hc
    exact bind_eq_ok_iff.2 ⟨(), checkPath_front hne hc, hfold⟩
  rw [isDirectory, hlocate]
  exact hdirectory

/-! ## Making directories -/

/-- A last segment that is not empty is followed by slashes only. -/
theorem segments_eq_split (h : (split path).last ≠ "") : ∃ back,
    segments path = (split path).front ++ (split path).last :: back ∧
      ((split path).slashBehind = false → back = []) := by
  unfold split at h ⊢
  simp only at h ⊢
  have hwords : ((segments path).reverse.dropWhile (· == "")).reverse ++
      ((segments path).reverse.takeWhile (· == "")).reverse = segments path := by
    rw [← List.reverse_append, List.takeWhile_append_dropWhile, List.reverse_reverse]
  generalize ((segments path).reverse.dropWhile (· == "")).reverse = kept at h hwords ⊢
  generalize ((segments path).reverse.takeWhile (· == "")).reverse = back at hwords
  have hkept : kept ≠ [] := by
    rintro rfl
    exact h rfl
  have hlast : kept.getLast?.getD "" = kept.getLast hkept := by
    rw [List.getLast?_eq_some_getLast hkept, Option.getD_some]
  refine ⟨back, ?_, fun hslash => ?_⟩
  · rw [hlast, List.append_cons, List.dropLast_concat_getLast, hwords]
  · rw [decide_eq_false_iff_not, ← hwords, List.length_append] at hslash
    exact List.length_eq_zero_iff.1 (by omega)

theorem locateFront_eq_ok (h : t.locateFront path = .ok place) : checkPath path = .ok () ∧
    (split path).front.foldlM t.step (start path) = .ok place ∧ t.isDirectoryAt place = true := by
  obtain ⟨_, hc, h⟩ := bind_eq_ok_iff.1 h
  obtain ⟨front, hfront, h⟩ := bind_eq_ok_iff.1 h
  split at h
  · next hd =>
    obtain rfl := Except.ok.inj h
    exact ⟨hc, hfront, hd⟩
  · cases h

/-- What making a directory does, if it is made. -/
theorem makeDirectory_eq_ok (h : t.makeDirectory path = .ok u) : ∃ front,
    t.locateFront path = .ok front ∧ isDots (split path).last = false ∧
      t.node? (front ++ [(split path).last]) = none ∧
      u = t.put (front ++ [(split path).last]) .directory := by
  obtain ⟨front, hfront, h⟩ := bind_eq_ok_iff.1 h
  simp only at h
  split at h
  · cases h
  · next hdots =>
    split at h
    · cases h
    · split at h
      · cases h
      · next hfree =>
        exact ⟨front, hfront, Bool.eq_false_iff.2 hdots, by simpa using hfree,
          (Except.ok.inj h).symm⟩

theorem ne_of_isDots {word : String} (h : isDots word = false) : word ≠ "" := by
  rintro rfl
  cases h

/-- A step by a proper name leads to where something of that name is. -/
theorem step_name_iff {word : String} {next : Place} (hw : isDots word = false) :
    t.step place word = .ok next ↔ t.isDirectoryAt place = true ∧
      word.utf8ByteSize ≤ maxNameBytes ∧ (t.node? (place ++ [word])).isSome = true ∧
        next = place ++ [word] := by
  rw [isDots, Bool.or_eq_false_iff, beq_eq_false_iff_ne] at hw
  unfold step
  rw [hw.1, if_neg Bool.false_ne_true, if_neg hw.2]
  constructor
  · intro h
    split at h
    · cases h
    · next hd =>
      split at h
      · cases h
      · next hsize =>
        split at h
        · next hthere => exact ⟨by simpa using hd, by omega, hthere, (Except.ok.inj h).symm⟩
        · cases h
  · rintro ⟨hd, hsize, hthere, rfl⟩
    rw [hd, Bool.not_true, if_neg Bool.false_ne_true, if_neg (by omega), if_pos hthere]

/-- No directory can be made where a path already leads. -/
theorem makeDirectory_of_locate (h : t.locate path = .ok place) :
    ∃ fault, t.makeDirectory path = .error fault := by
  cases hmade : t.makeDirectory path with
  | error fault => exact ⟨fault, rfl⟩
  | ok u =>
    exfalso
    obtain ⟨front, hfront, hdots, hfree, -⟩ := makeDirectory_eq_ok hmade
    obtain ⟨-, hplace, -⟩ := locateFront_eq_ok hfront
    obtain ⟨back, hs, -⟩ := segments_eq_split (ne_of_isDots hdots)
    obtain ⟨-, hwords⟩ := locate_eq_ok h
    rw [hs, List.foldlM_append] at hwords
    obtain ⟨same, hsame, hrest⟩ := bind_eq_ok_iff.1 hwords
    rw [hplace] at hsame
    obtain rfl := Except.ok.inj hsame
    rw [List.foldlM_cons] at hrest
    obtain ⟨next, hstep, -⟩ := bind_eq_ok_iff.1 hrest
    obtain ⟨-, -, hthere, -⟩ := (step_name_iff hdots).1 hstep
    rw [hfree] at hthere
    cases hthere

theorem exists_of_isDirectory (h : t.isDirectory path = true) :
    ∃ place, t.locate path = .ok place := by
  unfold isDirectory at h
  split at h
  · next place hlocate => exact ⟨place, hlocate⟩
  · cases h

/-- **Where a path leads to a directory** nothing is made. -/
theorem makeDirectories_of_isDirectory (h : t.isDirectory path = true) :
    t.makeDirectories path = (t, none) := by
  obtain ⟨place, hlocate⟩ := exists_of_isDirectory h
  obtain ⟨fault, hfault⟩ := makeDirectory_of_locate hlocate
  have hensure : t.ensureDirectory path = (t, none) := by
    unfold ensureDirectory
    rw [hfault]
    simp only [h, if_true]
  unfold makeDirectories holders holdersWithin makeEach
  split
  · rfl
  · rw [hensure]

/-- A directory that is not made is still missing. -/
theorem not_isDirectory_of_ensureDirectory {fault : FileFault}
    (h : t.ensureDirectory path = (u, some fault)) : u = t ∧ u.isDirectory path = false := by
  unfold ensureDirectory at h
  split at h
  · cases h
  · split at h
    · cases h
    · next hd =>
      obtain ⟨rfl, -⟩ := Prod.mk.inj h
      exact ⟨rfl, Bool.eq_false_iff.2 hd⟩

/-- **When directories cannot be made**, one of them is still missing. -/
theorem exists_of_makeEach {paths : List String} {fault : FileFault}
    (h : t.makeEach paths = (u, some fault)) :
    ∃ path ∈ paths, path ≠ "" ∧ u.isDirectory path = false := by
  induction paths generalizing t u fault with
  | nil => cases h
  | cons path paths ih =>
    rw [makeEach] at h
    split at h
    · cases h
    · next hne =>
      split at h
      · split at h
        · exact ⟨path, List.mem_cons_self, hne, (not_isDirectory_of_ensureDirectory h).2⟩
        · next hpaths =>
          obtain ⟨rfl, -⟩ := Prod.mk.inj h
          obtain ⟨missing, hm, hrest⟩ := ih hpaths
          exact ⟨missing, List.mem_cons_of_mem path hm, hrest⟩
      · exact ⟨path, List.mem_cons_self, hne, (not_isDirectory_of_ensureDirectory h).2⟩

/-- What holds a directory is a directory. -/
theorem isDirectory_of_mem_holders (h : t.isDirectory path = true) {holder : String}
    (hm : holder ∈ holders path) (hne : holder ≠ "") : t.isDirectory holder = true := by
  unfold holders at hm
  generalize (segments path).length.succ = fuel at hm
  induction fuel generalizing path with
  | zero => cases hm
  | succ fuel ih =>
    rw [holdersWithin] at hm
    rcases List.mem_cons.1 hm with rfl | hm
    · exact h
    · cases hp : parent? path with
      | none =>
        rw [hp] at hm
        cases hm
      | some parent =>
        rw [hp, Option.elim_some] at hm
        by_cases hempty : parent = ""
        · -- nothing holds the empty path
          rw [hempty] at hm
          cases fuel with
          | zero => cases hm
          | succ fuel => exact absurd (List.mem_singleton.1 hm) hne
        · obtain ⟨place, hlocate⟩ := exists_of_isDirectory h
          exact ih (isDirectory_parent hlocate hp hempty) hm

/-! ## Writing -/

/-- What the file holds that the path leads to; nothing if there is no file. -/
def file? (t : Tree) (path : String) : Option Content :=
  match t.locate path with
  | .error _ => none
  | .ok place =>
    match t.node? place with
    | some (.file content) => some content
    | some .directory | none => none

theorem file?_eq_some_iff {content : Content} : t.file? path = some content ↔
    ∃ place, t.locate path = .ok place ∧ t.node? place = some (.file content) := by
  unfold file?
  constructor
  · intro h
    split at h
    · cases h
    · next place hlocate =>
      split at h
      · next other hnode =>
        obtain rfl := Option.some.inj h
        exact ⟨place, hlocate, hnode⟩
      · cases h
      · cases h
  · rintro ⟨place, hlocate, hnode⟩
    rw [hlocate]
    simp only [hnode]

/-- Whatever a path can pass through in the one tree it can pass through in the other. -/
structure Grows (t u : Tree) : Prop where
  there : ∀ place, (t.node? place).isSome = true → (u.node? place).isSome = true
  directories : ∀ place, t.isDirectoryAt place = true → u.isDirectoryAt place = true

/-- What stands where no directory was adds to the tree. -/
theorem grows_put (hd : t.isDirectoryAt place = false) (node : Node) :
    Grows t (t.put place node) := by
  have hput := fun other => node?_put t place other node (isImplied_of_not_directory hd)
  refine ⟨fun other h => ?_, fun other h => ?_⟩
  · rw [hput]
    split
    · rfl
    · exact h
  · unfold isDirectoryAt
    rw [hput, if_neg]
    · exact h
    · rintro rfl
      rw [hd] at h
      cases h

theorem Grows.step (h : Grows t u) {word : String} {next : Place}
    (hs : t.step place word = .ok next) : u.step place word = .ok next := by
  by_cases hw : isDots word = false
  · obtain ⟨hd, hsize, hthere, hnext⟩ := (step_name_iff hw).1 hs
    exact (step_name_iff hw).2 ⟨h.directories place hd, hsize, h.there _ hthere, hnext⟩
  · -- neither staying nor going up asks for anything but a directory to start from
    have hd := (step_eq_ok hs).1
    rw [Bool.not_eq_false, isDots, Bool.or_eq_true, beq_iff_eq] at hw
    unfold Tree.step at hs ⊢
    rw [hd] at hs
    rw [h.directories place hd]
    rcases hw with hw | rfl
    · rw [if_pos hw] at hs ⊢
      exact hs
    · exact hs

/-- **Ways go on leading where they led** when a tree grows. -/
theorem Grows.foldlM (h : Grows t u) {words : List String} {next : Place}
    (hs : words.foldlM t.step place = .ok next) : words.foldlM u.step place = .ok next := by
  induction words generalizing place with
  | nil => exact hs
  | cons word words ih =>
    rw [List.foldlM_cons] at hs ⊢
    obtain ⟨between, hw, hrest⟩ := bind_eq_ok_iff.1 hs
    rw [h.step hw]
    exact ih hrest

/-- What writing a file does, if it is written. -/
theorem write_to (h : t.write path text = .ok u) : ∃ front, t.locateFront path = .ok front ∧
    (split path).slashBehind = false ∧ isDots (split path).last = false ∧
      (split path).last.utf8ByteSize ≤ maxNameBytes ∧
      t.isDirectoryAt (front ++ [(split path).last]) = false ∧
      u = t.put (front ++ [(split path).last]) (.file (.text text)) := by
  obtain ⟨front, hfront, h⟩ := bind_eq_ok_iff.1 h
  simp only at h
  split at h
  · cases h
  · next hd =>
    rw [Bool.not_eq_true, Bool.or_eq_false_iff] at hd
    split at h
    · cases h
    · next hsize =>
      split at h
      · cases h
      · next hi =>
        exact ⟨front, hfront, hd.1, hd.2, by omega, Bool.eq_false_iff.2 hi, (Except.ok.inj h).symm⟩

/-- **Writing changes the place that the path leads to afterwards.** -/
theorem locate_write (h : t.write path text = .ok u) : ∃ place, u.locate path = .ok place ∧
    t.isDirectoryAt place = false ∧ u = t.put place (.file (.text text)) := by
  obtain ⟨front, hfront, hslash, hdots, hsize, hd, rfl⟩ := write_to h
  obtain ⟨hc, hplace, hdirectory⟩ := locateFront_eq_ok hfront
  obtain ⟨back, hs, hback⟩ := segments_eq_split (ne_of_isDots hdots)
  have hgrows := grows_put hd (.file (.text text))
  have hnode := node?_put t (front ++ [(split path).last]) (front ++ [(split path).last])
    (.file (.text text)) (isImplied_of_not_directory hd)
  rw [if_pos rfl] at hnode
  refine ⟨front ++ [(split path).last], ?_, hd, rfl⟩
  refine bind_eq_ok_iff.2 ⟨(), hc, ?_⟩
  rw [hs, hback hslash, List.foldlM_append, hgrows.foldlM hplace]
  have hlast := (step_name_iff hdots).2 ⟨hgrows.directories front hdirectory, hsize, by
    rw [hnode]
    rfl, rfl⟩
  exact bind_eq_ok_iff.2 ⟨front, rfl, bind_eq_ok_iff.2 ⟨_, hlast, rfl⟩⟩

/-- **A file holds what was written to it.** -/
theorem file?_write (h : t.write path text = .ok u) : u.file? path = some (.text text) := by
  obtain ⟨place, hlocate, hd, rfl⟩ := locate_write h
  refine file?_eq_some_iff.2 ⟨place, hlocate, ?_⟩
  rw [node?_put _ _ _ _ (isImplied_of_not_directory hd), if_pos rfl]

/-- A file that is there can be written. -/
theorem exists_write_of_file? {content : Content} (h : t.file? path = some content)
    (text : String) : ∃ u, t.write path text = .ok u := by
  obtain ⟨place, hlocate, hnode⟩ := file?_eq_some_iff.1 h
  have hd : t.isDirectoryAt place = false := by
    rw [isDirectoryAt, hnode]
    rfl
  exact ⟨_, write_file hlocate hd text⟩

end Tree

end Files

namespace Command

open Files Files.Tree

variable {t u : Tree} {path text : String} {content : Content}

/-! ## Writing with directories -/

/-- Where a file already is there is nothing to prepare. -/
theorem prepare_of_file? (h : t.file? path = some content) : prepare t path = (t, none) := by
  obtain ⟨place, hlocate, -⟩ := file?_eq_some_iff.1 h
  unfold prepare
  split
  · rfl
  · next parent hp =>
    by_cases hempty : parent = ""
    · rw [hempty]
      rfl
    · rw [makeDirectories_of_isDirectory (isDirectory_parent hlocate hp hempty)]
      rfl

/-- When the directories are not made there is no file. -/
theorem file?_of_prepare {failure : RunFailure} (h : prepare t path = (u, some failure)) :
    u.file? path = none := by
  unfold prepare at h
  split at h
  · cases h
  · next parent hp =>
    cases hmade : t.makeDirectories parent with
    | mk made fault =>
      rw [hmade] at h
      obtain ⟨rfl, hfault⟩ := Prod.mk.inj h
      obtain ⟨fault, rfl, -⟩ := Option.map_eq_some_iff.1 hfault
      obtain ⟨holder, hm, hne, hmissing⟩ := exists_of_makeEach hmade
      rw [Option.eq_none_iff_forall_ne_some]
      intro content hfile
      obtain ⟨place, hlocate, -⟩ := file?_eq_some_iff.1 hfile
      have hparent : parent ≠ "" := by
        rintro rfl
        cases hmade
      have hd := isDirectory_parent hlocate hp hparent
      rw [isDirectory_of_mem_holders hd hm hne] at hmissing
      cases hmissing

/-- Directories are made first, and then the text is written. -/
theorem writeFile_iff : writeFile t path text = (u, none) ↔
    ∃ made, prepare t path = (made, none) ∧ made.write path text = .ok u := by
  unfold writeFile
  rcases prepare t path with ⟨made, failure | failure⟩
  · simp only [Prod.mk.injEq, and_true, exists_eq_left']
    cases made.write path text with
    | error fault => simp
    | ok u => simp
  · simp

/-- **A file holds what was written to it.** -/
theorem file?_writeFile (h : (writeFile t path text).2 = none) :
    (writeFile t path text).1.file? path = some (.text text) := by
  obtain ⟨made, -, hwrite⟩ := writeFile_iff.1 (Prod.ext rfl h)
  exact file?_write hwrite

/-- **When a file is not written there is none**, neither before nor after. -/
theorem file?_of_writeFile_failed {failure : RunFailure}
    (h : (writeFile t path text).2 = some failure) :
    t.file? path = none ∧ (writeFile t path text).1.file? path = none := by
  have hbefore : t.file? path = none := by
    rw [Option.eq_none_iff_forall_ne_some]
    intro content hfile
    obtain ⟨u, hu⟩ := exists_write_of_file? hfile text
    unfold writeFile at h
    rw [prepare_of_file? hfile] at h
    simp only [hu] at h
    cases h
  refine ⟨hbefore, ?_⟩
  unfold writeFile at h ⊢
  split
  · next hp => exact file?_of_prepare hp
  · next made hp =>
    rw [hp] at h
    simp only at h ⊢
    split
    · next hw =>
      rw [hw] at h
      cases h
    · next fault hw =>
      rw [Option.eq_none_iff_forall_ne_some]
      intro content hfile
      obtain ⟨u, hu⟩ := exists_write_of_file? hfile text
      rw [hw] at hu
      cases hu

end Command

end DartUnion
