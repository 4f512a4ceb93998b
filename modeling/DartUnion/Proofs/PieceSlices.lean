import DartUnion.Proofs.ByteSlices
import DartUnion.Proofs.Pieces

/-!
# The pieces of a parameter list within its text

The pieces of a parameter list can be told by where they start and end, as `split_top_level` tells
them. `slicesFrom?` is its loop: it walks through the list with the number of the byte that it is at,
remembers the byte where the piece at hand starts, and takes slices of the text; a slice that does not
exist ends the walk. It cuts where `cutPieces` does, so every slice exists and gives the piece that
`pieces` gives.

Between the pieces stands nothing but blanks and the characters at which the list is cut. `Parted`
says so: some texts stand in a text in order and apart, with only such characters around them.

Results:
* `slice_step`: one character moves the start of the piece at hand as it moves the scan.
* `keptFrom?_eq`: a walk from the middle of a piece, for every text, nested or not.
* `parted_pieces`: no character of a piece is lost, doubled or moved.
* `slicedPieces?_eq`: **every slice exists, and the pieces are parts of the list in order.**
-/

namespace DartUnion.Source

open DartUnion.Text

/-! ## What stands between the pieces -/

/-- The characters at which a parameter list may be cut. -/
def cutMarks : List Char := [',', '[', ']', '{', '}']

/-- The text may stand between two pieces: it has only blanks and marks. -/
def IsBetween (w : List Char) : Prop := ∀ c ∈ w, isBlank c = true ∨ c ∈ cutMarks

/-- The texts stand in `s` in order, none of them reaches into another, and what is in front of
them, between them and behind them is no part of a piece. -/
inductive Parted : List Char → List (List Char) → Prop
  | behind {w : List Char} (hw : IsBetween w) : Parted w []
  | piece {w t s : List Char} {ts : List (List Char)} (hw : IsBetween w) (h : Parted s ts) :
      Parted (w ++ t ++ s) (t :: ts)

theorem isBetween_append {v w : List Char} (hv : IsBetween v) (hw : IsBetween w) :
    IsBetween (v ++ w) :=
  fun c hc => (List.mem_append.1 hc).elim (hv c) (hw c)

theorem isBetween_of_allBlank {w : List Char} (h : allBlank w = true) : IsBetween w :=
  fun c hc => .inl (List.all_eq_true.1 h c hc)

/-- More may stand in front. -/
theorem Parted.between {w s : List Char} {ts : List (List Char)} (hw : IsBetween w)
    (h : Parted s ts) : Parted (w ++ s) ts := by
  cases h with
  | behind hv => exact .behind (isBetween_append hw hv)
  | piece hv h =>
    rw [← List.append_assoc, ← List.append_assoc]
    exact .piece (isBetween_append hw hv) h

/-- A blank text between two others can be left out. -/
theorem Parted.filter {s : List Char} {ts : List (List Char)} (h : Parted s ts) :
    Parted s (ts.filter fun t => !allBlank t) := by
  induction h with
  | behind hw => exact .behind hw
  | @piece w t s ts hw _ ih =>
    rw [List.filter_cons]
    split
    · exact .piece hw ih
    · next ht =>
      have hblank : allBlank t = true := by simpa using ht
      rw [List.append_assoc]
      exact .between hw (.between (isBetween_of_allBlank hblank) ih)

/-- A scan only cuts at marks. -/
theorem mem_cutMarks_of_cuts {st : Scan} {c : Char} (h : st.cuts c = true) : c ∈ cutMarks := by
  simp only [Scan.cuts, Bool.or_eq_true] at h
  rcases h with (ho | hc) | hs
  · unfold Scan.opens? at ho
    split at ho
    · split at ho
      · next h => simp [cutMarks, h]
      · split at ho
        · next h => simp [cutMarks, h]
        · cases ho
    · cases ho
  · simp only [Scan.closes, Bool.and_eq_true, Bool.or_eq_true, beq_iff_eq] at hc
    rcases hc.1.1 with rfl | rfl <;> simp [cutMarks]
  · simp only [Scan.separates, Bool.and_eq_true, beq_iff_eq] at hs
    simp [cutMarks, hs.1]

/-- The piece at hand is the head of the text, and the pieces behind it stand in the rest. -/
theorem parted_cutPieces (st : Scan) (s : List Char) :
    ∃ behind, s = (cutPieces st s).1.text ++ behind ∧
      Parted behind ((cutPieces st s).2.map Piece.text) := by
  induction s generalizing st with
  | nil => exact ⟨[], rfl, .behind fun _ h => nomatch h⟩
  | cons c s ih =>
    obtain ⟨behind, hs, hp⟩ := ih (st.after c)
    rw [cutPieces]
    split
    · next hc =>
      refine ⟨c :: s, rfl, ?_⟩
      have hmark : IsBetween [c] := fun d hd =>
        .inr (List.mem_singleton.1 hd ▸ mem_cutMarks_of_cuts hc)
      have := Parted.piece (t := (cutPieces (st.after c) s).1.text) hmark hp
      rwa [List.append_assoc, ← hs] at this
    · exact ⟨behind, congrArg (c :: ·) hs, hp⟩

/-- **No character of a piece is lost, doubled or moved.** -/
theorem parted_pieces (s : List Char) : Parted s ((pieces s).map Piece.text) := by
  obtain ⟨behind, hs, hp⟩ := parted_cutPieces {} s
  have hall := Parted.filter (Parted.piece (w := []) (t := (cutPieces {} s).1.text)
    (fun _ h => nomatch h) hp)
  rw [List.nil_append, ← hs, ← List.map_cons, List.filter_map] at hall
  exact hall

/-! ## The walk by bytes -/

/-- What a walk remembers: how deep it is nested, the group that is open, the group of the piece at
hand and the byte where that piece starts. -/
structure Cursor where
  depth : Nat := 0
  inside : Group := .positional
  group : Group := .positional
  start : Nat := 0

/-- A slice and the group that it stands in. -/
abbrev Slice := String × Group

section

variable (text : String)

/-- The group that `c` opens at byte `i`, if it does. Whether the piece at hand is blank so far is
only looked at in front of a bracket that could open one. -/
def Cursor.opens? (cur : Cursor) (i : Nat) (c : Char) : Option (Option Group) :=
  if (c = '[' ∨ c = '{') ∧ cur.depth = 0 ∧ cur.inside = .positional then
    (byteSlice? text cur.start i).map fun t =>
      if allBlank t.toList then some (if c = '[' then .optional else .named) else none
  else some none

/-- One step over `c` at byte `i`: what is remembered behind it and the slice that ends here, if one
does. -/
def Cursor.step? (cur : Cursor) (i : Nat) (c : Char) : Option (Cursor × Option Slice) := do
  match ← cur.opens? text i c with
  | some g => return ({ cur with inside := g, group := g, start := i + 1 }, none)
  | none =>
    if (c = ']' ∨ c = '}') ∧ cur.depth = 0 ∧ cur.inside ≠ .positional then
      let t ← byteSlice? text cur.start i
      return ({ cur with inside := .positional, start := i + 1 }, some (t, cur.group))
    else if isOpening c then return ({ cur with depth := cur.depth + 1 }, none)
    else if isClosing c then return ({ cur with depth := cur.depth - 1 }, none)
    else if c = ',' ∧ cur.depth = 0 then
      let t ← byteSlice? text cur.start i
      return ({ cur with group := cur.inside, start := i + 1 }, some (t, cur.group))
    else return (cur, none)

/-- The slices from byte `i` on, the list being the text from there. The last reaches to the end. -/
def slicesFrom? (cur : Cursor) (i : Nat) : List Char → Option (List Slice)
  | [] => (byteSlice? text cur.start text.utf8ByteSize).map fun t => [(t, cur.group)]
  | c :: s => do
    let (cur, ended) ← cur.step? text i c
    let rest ← slicesFrom? cur (i + c.utf8Size) s
    return ended.toList ++ rest

/-- The slice is kept. -/
def Slice.kept (t : Slice) : Bool := !allBlank t.1.toList

/-- The slices that are kept, from byte `i` on. -/
def keptFrom? (cur : Cursor) (i : Nat) (s : List Char) : Option (List Slice) :=
  (slicesFrom? text cur i s).map (·.filter Slice.kept)

/-- The slices of a parameter list that are not blank. -/
def slicedPieces? : Option (List Slice) := keptFrom? text {} 0 text.toList

end

/-- A walk at the place of a scan, the piece at hand starting at byte `start`. -/
def Scan.cursor (st : Scan) (start : Nat) : Cursor := ⟨st.depth, st.inside, st.group, start⟩

/-- A piece as a slice. -/
def Piece.slice (p : Piece) : Slice := (String.ofList p.text, p.group)

theorem kept_slice (p : Piece) : p.slice.kept = !allBlank p.text := by
  rw [Slice.kept, Piece.slice, String.toList_ofList]

section

variable {text a p : String} {st : Scan} {start i : Nat}

/-- The walk sees the same opening brackets as the scan. -/
theorem opens?_cursor (hp : byteSlice? text start i = some p) (hb : st.blank = allBlank p.toList)
    (c : Char) : (st.cursor start).opens? text i c = some (st.opens? c) := by
  unfold Cursor.opens? Scan.opens?
  by_cases hst : st.depth = 0 ∧ st.inside = .positional
  · by_cases hc : c = '[' ∨ c = '{'
    · rw [if_pos ⟨hc, hst⟩]
      show (byteSlice? text start i).map _ = _
      rw [hp, Option.map_some, ← hb]
      rcases hc with rfl | rfl <;> simp [hst]
    · rw [if_neg fun h => hc h.1]
      obtain ⟨h₁, h₂⟩ := not_or.1 hc
      simp [h₁, h₂]
  · rw [if_neg fun h => hst h.2, if_neg]
    simpa using fun h₁ h₂ => absurd ⟨h₁, h₂⟩ hst

/-- A group only opens in front of a piece, where nothing is nested. -/
theorem blank_of_opens? {c : Char} {g : Group} (h : st.opens? c = some g) :
    st.depth = 0 ∧ st.blank = true := by
  unfold Scan.opens? at h
  split at h
  · next hst =>
    simp only [Bool.and_eq_true, beq_iff_eq] at hst
    exact ⟨hst.1.1, hst.2⟩
  · cases h

/-- **One step.** The start of the piece at hand moves behind a character that cuts and stays
otherwise. The slice that ends is the piece at hand; in front of a bracket that opens a group it is
left out, being blank. -/
theorem slice_step (hp : byteSlice? text start i = some p) (hb : st.blank = allBlank p.toList)
    (c : Char) :
    ∃ ended, (st.cursor start).step? text i c =
        some ((st.after c).cursor (if st.cuts c then i + 1 else start), ended) ∧
      ended.toList.filter Slice.kept =
        (if st.cuts c then [(p, st.group)] else []).filter Slice.kept := by
  have hslice : byteSlice? text (st.cursor start).start i = some p := hp
  have hcloses : (c = ']' ∨ c = '}') ∧ (st.cursor start).depth = 0 ∧
      (st.cursor start).inside ≠ .positional ↔ st.closes c = true := by
    simp [Scan.closes, Scan.cursor, and_assoc]
  have hseparates : c = ',' ∧ (st.cursor start).depth = 0 ↔ st.separates c = true := by
    simp [Scan.separates, Scan.cursor]
  rw [Cursor.step?, opens?_cursor hp hb, Option.bind_eq_bind, Option.bind_some]
  simp only [hcloses, hseparates, hslice]
  cases ho : st.opens? c with
  | some g =>
    obtain ⟨hdepth, hblank⟩ := blank_of_opens? ho
    have hcuts : st.cuts c = true := by simp [Scan.cuts, ho]
    refine ⟨none, ?_, ?_⟩
    · simp [Scan.after, ho, hcuts, Scan.cursor, hdepth]
    · simp [hcuts, Slice.kept, ← hb, hblank]
  | none =>
    by_cases hc : st.closes c = true
    · have hcuts : st.cuts c = true := by simp [Scan.cuts, hc]
      refine ⟨some (p, st.group), ?_, by rw [hcuts]; rfl⟩
      simp [Scan.after, ho, hc, hcuts, Scan.cursor]
    by_cases hs : st.separates c = true
    · have hcuts : st.cuts c = true := by simp [Scan.cuts, hs]
      refine ⟨some (p, st.group), ?_, by rw [hcuts]; rfl⟩
      obtain rfl : c = ',' := by simp [Scan.separates] at hs; exact hs.1
      simp [Scan.after, ho, hc, hs, hcuts, Scan.cursor, isOpening, isClosing]
    · have hcuts : st.cuts c = false := by simp [Scan.cuts, ho, hc, hs]
      refine ⟨none, ?_, by rw [hcuts]; rfl⟩
      simp only [Scan.after, ho, hc, hs, hcuts, Scan.cursor, depthAfter, Bool.false_eq_true,
        if_false]
      by_cases h₁ : isOpening c = true
      · simp [h₁]
      · by_cases h₂ : isClosing c = true <;> simp [h₁, h₂]

/-- A walk is its first step and the walk from there. -/
theorem keptFrom?_cons {cur cur' : Cursor} {c : Char} {ended : Option Slice}
    (h : cur.step? text i c = some (cur', ended)) (s : List Char) :
    keptFrom? text cur i (c :: s) =
      (keptFrom? text cur' (i + c.utf8Size) s).map (ended.toList.filter Slice.kept ++ ·) := by
  rw [keptFrom?, slicesFrom?, h, keptFrom?]
  show Option.map _ ((slicesFrom? text cur' (i + c.utf8Size) s).bind fun rest =>
    some (ended.toList ++ rest)) = _
  cases slicesFrom? text cur' (i + c.utf8Size) s with
  | none => rfl
  | some rest => simp

end

/-- A character at which a list is cut takes one byte. -/
theorem utf8Size_of_mem_cutMarks {c : Char} (h : c ∈ cutMarks) : c.utf8Size = 1 := by
  simp only [cutMarks, List.mem_cons, List.not_mem_nil, or_false] at h
  rcases h with rfl | rfl | rfl | rfl | rfl <;> rfl

/-- Behind a cut the next piece is blank so far. -/
theorem blank_after_of_cuts {st : Scan} {c : Char} (h : st.cuts c = true) :
    (st.after c).blank = true := by
  unfold Scan.cuts at h
  unfold Scan.after
  cases ho : st.opens? c with
  | some g => rfl
  | none =>
    cases hc : st.closes c with
    | true => rfl
    | false =>
      cases hs : st.separates c with
      | true => rfl
      | false => simp [ho, hc, hs] at h

/-- **A walk from the middle of a piece**, of which `p` is passed. Every slice exists, and those
that are kept are the pieces that the scan finds. -/
theorem keptFrom?_eq {text a p : String} {st : Scan} {s : List Char}
    (ht : text = a ++ p ++ String.ofList s) (hb : st.blank = allBlank p.toList) :
    keptFrom? text (st.cursor a.utf8ByteSize) (a ++ p).utf8ByteSize s =
      some (((⟨p.toList ++ (cutPieces st s).1.text, st.group⟩ :: (cutPieces st s).2).map
        Piece.slice).filter Slice.kept) := by
  induction s generalizing a p st with
  | nil =>
    have hend : text = a ++ p := by rw [ht, String.ofList_nil, String.append_empty]
    rw [keptFrom?, slicesFrom?, hend]
    show (Option.map _ (byteSlice? (a ++ p) a.utf8ByteSize _)).map _ = _
    rw [byteSlice?_append_end]
    simp [cutPieces, Piece.slice, Scan.cursor]
  | cons c s ih =>
    have hp : byteSlice? text a.utf8ByteSize (a ++ p).utf8ByteSize = some p := by
      rw [ht]
      exact byteSlice?_append a p _
    have htext : text = a ++ p ++ String.singleton c ++ String.ofList s := by
      rw [ht, String.ofList_cons, ← String.append_assoc]
    have hsize : (a ++ p ++ String.singleton c).utf8ByteSize = (a ++ p).utf8ByteSize + c.utf8Size :=
      utf8ByteSize_append_singleton (a ++ p) c
    obtain ⟨ended, hstep, hended⟩ := slice_step hp hb c
    rw [keptFrom?_cons hstep, hended, ← hsize]
    by_cases hc : st.cuts c = true
    · -- the next piece starts behind `c`
      have hrest := @ih (a ++ p ++ String.singleton c) "" (st.after c)
        (by rw [htext, String.append_empty]) (blank_after_of_cuts hc)
      rw [String.append_empty] at hrest
      rw [if_pos hc, if_pos hc, ← utf8Size_of_mem_cutMarks (mem_cutMarks_of_cuts hc), ← hsize,
        hrest, Option.map_some, ← List.filter_append]
      simp [cutPieces, hc, Piece.slice, ← group_cutPieces (st.after c) s]
    · -- `c` joins the piece at hand
      rw [Bool.not_eq_true] at hc
      have hafter := after_of_not_cuts hc
      have hrest := @ih a (p ++ String.singleton c) (st.after c)
        (by rw [htext]; simp only [String.append_assoc]) (by simp [hafter, hb, allBlank])
      rw [← String.append_assoc] at hrest
      rw [hc, if_neg Bool.false_ne_true, if_neg Bool.false_ne_true, hrest]
      simp [cutPieces, hc, Piece.slice, hafter]

/-- A parameter list is never cut out of range or within a character, and **its pieces are parts of
it in order**: none is blank, and nothing but blanks and marks stands around them. -/
theorem slicedPieces?_eq (text : String) :
    slicedPieces? text = some ((pieces text.toList).map Piece.slice) ∧
      (∀ p ∈ pieces text.toList, allBlank p.text = false) ∧
      Parted text.toList ((pieces text.toList).map Piece.text) := by
  refine ⟨?_, fun p hp => mem_pieces hp, parted_pieces text.toList⟩
  have htext : text = "" ++ "" ++ String.ofList text.toList := by simp
  have hwalk := @keptFrom?_eq text "" "" {} text.toList htext rfl
  rw [String.toList_empty, List.nil_append, ← group_cutPieces {} text.toList, List.filter_map]
    at hwalk
  have hkept : Slice.kept ∘ Piece.slice = fun p => !allBlank p.text := funext kept_slice
  rw [hkept] at hwalk
  exact hwalk

end DartUnion.Source
