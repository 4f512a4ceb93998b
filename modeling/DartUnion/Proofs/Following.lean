import DartUnion.Files.Access

/-!
# Following a path to a file

A path is followed through directories only, and everything that holds the place reached is one
(`Held`). So a segment that leads nowhere and a segment `..` both end at a directory, and a path
that leads to a file ends in a proper name. That is what writing asks for: a file that is reached by
a path can be written by the same path, and at the same place.

Writing a file where one is leaves the shape of the tree as it is (`SameShape`), and only the shape
counts when a path is followed.

* `locate_file`: the way to a file ends in a proper name.
* `write_file`: **a file that is reached can be written**, at the place that was reached.
* `SameShape.locate_eq`: trees of the same shape agree on where paths lead.
-/

namespace DartUnion

/-- What comes of two parts in a row comes of the first and then of the second. -/
theorem bind_eq_ok_iff {ε α β : Type} {x : Except ε α} {f : α → Except ε β} {b : β} :
    x >>= f = .ok b ↔ ∃ a, x = .ok a ∧ f a = .ok b := by
  cases x with
  | error e =>
    refine iff_of_false (fun h => by cases h) ?_
    rintro ⟨a, ha, -⟩
    cases ha
  | ok a =>
    refine ⟨fun h => ⟨a, rfl, h⟩, ?_⟩
    rintro ⟨a', ha, h⟩
    obtain rfl := Except.ok.inj ha
    exact h

namespace Files.Tree

variable {t u : Tree} {place : Place} {path : String}

/-! ## Holders -/

/-- Everything that holds the place is a directory. -/
def Held (t : Tree) (place : Place) : Prop :=
  ∀ front word back, place = front ++ word :: back → t.isDirectoryAt front = true

theorem isDirectoryAt_of_isImplied (h : isImplied place = true) : t.isDirectoryAt place = true := by
  unfold isDirectoryAt node?
  rw [if_pos h]
  exact beq_self_eq_true _

/-- Places above the current directory are implied. -/
theorem isImplied_of_dots (h : place.all (· == "..") = true) : isImplied place = true := by
  unfold isImplied
  rw [h, Bool.or_true]

theorem isDirectoryAt_start (t : Tree) (path : String) : t.isDirectoryAt (start path) = true := by
  refine isDirectoryAt_of_isImplied ?_
  unfold start
  split
  · rfl
  · rfl

theorem held_start (t : Tree) (path : String) : t.Held (start path) := by
  intro front word back h
  have hfront : front = [] := by
    unfold start at h
    split at h
    · cases front with
      | nil => rfl
      | cons _ front => exact absurd (List.cons.inj h).2 (by simp)
    · exact absurd h (by simp)
  rw [hfront]
  exact isDirectoryAt_of_isImplied rfl

/-- What a step can do. -/
theorem step_eq_ok {word : String} {next : Place} (h : t.step place word = .ok next) :
    t.isDirectoryAt place = true ∧
      (staysPut word = true ∧ next = place ∨ word = ".." ∧ next = above place ∨
        isDots word = false ∧ word.utf8ByteSize ≤ maxNameBytes ∧ next = place ++ [word]) := by
  unfold step at h
  split at h
  · cases h
  · next hd =>
    rw [Bool.not_eq_true, Bool.not_eq_false'] at hd
    refine ⟨hd, ?_⟩
    split at h
    · next hs => exact .inl ⟨hs, (Except.ok.inj h).symm⟩
    · next hs =>
      split at h
      · next hw => exact .inr (.inl ⟨hw, (Except.ok.inj h).symm⟩)
      · next hw =>
        split at h
        · cases h
        · next hsize =>
          split at h
          · refine .inr (.inr ⟨?_, by omega, (Except.ok.inj h).symm⟩)
            rw [isDots, Bool.or_eq_false_iff, beq_eq_false_iff_ne]
            exact ⟨Bool.eq_false_iff.2 hs, hw⟩
          · cases h

theorem held_above (h : t.Held place) : t.Held (above place) := by
  unfold above
  split
  · exact h
  · split
    · next hdots =>
      intro front word back he
      have hfront : front.all (· == "..") = true := by
        have hall : (place ++ [".."]).all (· == "..") = true := by
          rw [List.all_append, hdots]
          rfl
        rw [he, List.all_append, Bool.and_eq_true] at hall
        exact hall.1
      exact isDirectoryAt_of_isImplied (isImplied_of_dots hfront)
    · intro front word back he
      have hne : place ≠ [] := by
        rintro rfl
        exact absurd he (by simp)
      rw [← List.dropLast_concat_getLast hne, he, List.append_assoc] at h
      exact h front word _ rfl

/-- What holds a directory is a directory. -/
theorem isDirectoryAt_above (h : t.Held place) (hd : t.isDirectoryAt place = true) :
    t.isDirectoryAt (above place) = true := by
  unfold above
  split
  · exact hd
  · split
    · next hdots =>
      refine isDirectoryAt_of_isImplied (isImplied_of_dots ?_)
      rw [List.all_append, hdots]
      rfl
    · next hdots =>
      have hne : place ≠ [] := by
        rintro rfl
        exact hdots rfl
      exact h _ _ [] (List.dropLast_concat_getLast hne).symm

theorem held_step {word : String} {next : Place} (h : t.Held place)
    (hs : t.step place word = .ok next) : t.Held next := by
  obtain ⟨hd, ⟨-, rfl⟩ | ⟨-, rfl⟩ | ⟨-, -, rfl⟩⟩ := step_eq_ok hs
  · exact h
  · exact held_above h
  · -- the place itself is the only holder that is new, and the step asked for a directory there
    intro front last back he
    rcases List.append_eq_append_iff.1 he with ⟨rest, rfl, hrest⟩ | ⟨rest, hplace, hrest⟩
    · cases rest with
      | nil => rwa [List.append_nil]
      | cons a rest => exact absurd (List.cons.inj hrest).2 (by simp)
    · cases rest with
      | nil =>
        rw [List.append_nil] at hplace
        rwa [← hplace]
      | cons a rest => exact h front a rest hplace

theorem held_foldlM {words : List String} {next : Place} (h : t.Held place)
    (hs : words.foldlM t.step place = .ok next) : t.Held next := by
  induction words generalizing place with
  | nil =>
    obtain rfl : place = next := Except.ok.inj hs
    exact h
  | cons word words ih =>
    rw [List.foldlM_cons] at hs
    obtain ⟨between, hw, hrest⟩ := bind_eq_ok_iff.1 hs
    exact ih (held_step h hw) hrest

/-- A step that ends at no directory goes by a proper name. -/
theorem step_file {word : String} {next : Place} (h : t.Held place)
    (hs : t.step place word = .ok next) (hd : t.isDirectoryAt next = false) :
    t.isDirectoryAt place = true ∧ isDots word = false ∧ word.utf8ByteSize ≤ maxNameBytes ∧
      next = place ++ [word] := by
  obtain ⟨hp, ⟨-, rfl⟩ | ⟨-, rfl⟩ | hname⟩ := step_eq_ok hs
  · rw [hp] at hd
    cases hd
  · rw [isDirectoryAt_above h hp] at hd
    cases hd
  · exact ⟨hp, hname⟩

/-! ## Files -/

/-- A path whose last segment is not empty is split in front of it. -/
theorem split_eq {words : List String} {word : String} (h : segments path = words ++ [word])
    (hw : word ≠ "") : split path = ⟨words, word, false⟩ := by
  have hkept : ((words ++ [word]).reverse.dropWhile (· == "")).reverse = words ++ [word] := by
    rw [List.reverse_append, List.reverse_singleton, List.singleton_append,
      List.dropWhile_cons_of_neg (by simp [hw]), List.reverse_cons, List.reverse_reverse]
  unfold split
  simp only [h, hkept, List.dropLast_concat, List.getLast?_concat, Option.getD_some,
    Nat.lt_irrefl, decide_false]

theorem locate_eq_ok (h : t.locate path = .ok place) :
    checkPath path = .ok () ∧ (segments path).foldlM t.step (start path) = .ok place := by
  obtain ⟨_, hc, hwords⟩ := bind_eq_ok_iff.1 h
  exact ⟨hc, hwords⟩

/-- **The way to a file ends in a proper name**, and a directory is in front of it. -/
theorem locate_file (h : t.locate path = .ok place) (hd : t.isDirectoryAt place = false) :
    ∃ front, t.locateFront path = .ok front ∧ place = front ++ [(split path).last] ∧
      (split path).slashBehind = false ∧ isDots (split path).last = false ∧
      (split path).last.utf8ByteSize ≤ maxNameBytes := by
  obtain ⟨hc, hwords⟩ := locate_eq_ok h
  rcases List.eq_nil_or_concat (segments path) with hnil | ⟨words, word, hsplit⟩
  · rw [hnil] at hwords
    obtain rfl : start path = place := Except.ok.inj hwords
    rw [isDirectoryAt_start] at hd
    cases hd
  · rw [List.concat_eq_append] at hsplit
    rw [hsplit, List.foldlM_append] at hwords
    obtain ⟨front, hfront, hlast⟩ := bind_eq_ok_iff.1 hwords
    rw [List.foldlM_cons] at hlast
    obtain ⟨next, hstep, hnext⟩ := bind_eq_ok_iff.1 hlast
    obtain rfl : next = place := Except.ok.inj hnext
    obtain ⟨hp, hdots, hsize, hplace⟩ := step_file (held_foldlM (held_start t path) hfront) hstep hd
    -- only empty segments are dropped at the end of a path, so this one is the last
    have hword : word ≠ "" := by
      rintro rfl
      cases hdots
    rw [split_eq hsplit hword]
    refine ⟨front, ?_, hplace, rfl, hdots, hsize⟩
    unfold locateFront
    rw [split_eq hsplit hword]
    exact bind_eq_ok_iff.2 ⟨(), hc, bind_eq_ok_iff.2 ⟨front, hfront, if_pos hp⟩⟩

/-- What writing asks for is enough to write any text. -/
theorem write_front {front : Place} (hfront : t.locateFront path = .ok front)
    (hslash : (split path).slashBehind = false) (hdots : isDots (split path).last = false)
    (hsize : (split path).last.utf8ByteSize ≤ maxNameBytes)
    (hd : t.isDirectoryAt (front ++ [(split path).last]) = false) (text : String) :
    t.write path text = .ok (t.put (front ++ [(split path).last]) (.file (.text text))) := by
  refine bind_eq_ok_iff.2 ⟨front, hfront, ?_⟩
  simp only [hslash, hdots, hd, Bool.or_self, Bool.false_eq_true, if_false,
    if_neg (Nat.not_lt.2 hsize)]
  rfl

/-- **A file that is reached can be written**, at the place that was reached. -/
theorem write_file (h : t.locate path = .ok place) (hd : t.isDirectoryAt place = false)
    (text : String) : t.write path text = .ok (t.put place (.file (.text text))) := by
  obtain ⟨front, hfront, rfl, hslash, hdots, hsize⟩ := locate_file h hd
  exact write_front hfront hslash hdots hsize hd text

/-- Reading gives the text of the file that the path leads to. -/
theorem read_eq_ok_iff {text : String} : t.read path = .ok text ↔
    ∃ place, t.locate path = .ok place ∧ t.node? place = some (.file (.text text)) := by
  constructor
  · intro h
    obtain ⟨place, hlocate, hnode⟩ := bind_eq_ok_iff.1 h
    refine ⟨place, hlocate, ?_⟩
    split at hnode
    · next s hs =>
      obtain rfl := Except.ok.inj hnode
      exact hs
    all_goals cases hnode
  · rintro ⟨place, hlocate, hnode⟩
    refine bind_eq_ok_iff.2 ⟨place, hlocate, ?_⟩
    rw [hnode]
    rfl

/-! ## Shapes -/

/-- The trees have something at the same places, and directories at the same places. -/
structure SameShape (t u : Tree) : Prop where
  there : ∀ place, (u.node? place).isSome = (t.node? place).isSome
  directories : ∀ place, u.isDirectoryAt place = t.isDirectoryAt place

theorem SameShape.refl (t : Tree) : SameShape t t := ⟨fun _ => rfl, fun _ => rfl⟩

/-- What is no directory is not implied. -/
theorem isImplied_of_not_directory (h : t.isDirectoryAt place = false) :
    isImplied place = false := by
  cases hi : isImplied place with
  | false => rfl
  | true =>
    rw [isDirectoryAt_of_isImplied hi] at h
    cases h

/-- A file in place of a file keeps the shape. -/
theorem SameShape.put (h : SameShape t u) {content content' : Content}
    (hf : t.node? place = some (.file content)) : SameShape t (u.put place (.file content')) := by
  have hd : t.isDirectoryAt place = false := by
    rw [isDirectoryAt, hf]
    rfl
  have hput := fun other => node?_put u place other (.file content') (isImplied_of_not_directory hd)
  refine ⟨fun other => ?_, fun other => ?_⟩
  · rw [hput]
    by_cases ho : other = place
    · rw [if_pos ho, ho, hf]
      rfl
    · rw [if_neg ho, h.there]
  · unfold isDirectoryAt
    rw [hput]
    by_cases ho : other = place
    · rw [if_pos ho, ho, hf]
      rfl
    · rw [if_neg ho]
      exact h.directories other

/-- **Trees of the same shape agree on where paths lead.** -/
theorem SameShape.locate_eq (h : SameShape t u) (path : String) :
    u.locate path = t.locate path := by
  have hstep : u.step = t.step := by
    funext place word
    unfold step
    rw [h.directories, h.there]
  unfold locate
  rw [hstep]

end Files.Tree

end DartUnion
