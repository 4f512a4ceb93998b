import DartUnion.Proofs.Gaps
import DartUnion.Source.Parameter

/-!
# Where a parameter list is cut

A scan through a parameter list cuts it into pieces. A text is `Quiet` for a scan that does not cut
within it; then the text belongs to the piece at hand as a whole, and what the scan remembers behind
it is `Scan.run`. Guarded text is quiet wherever nothing is nested, whichever group is open, as long
as it does not start like a group.

Results:
* `quiet_of_guarded`: guarded text is quiet, and of what the scan remembers only the blankness of
  the piece may change.
* `parametersFrom_cut`, `parametersFrom_end`: the piece at hand is read by itself, and the rest of
  the list only sees the state behind the cut.
* `parametersFrom_comma`, `parametersFrom_opening`, `parametersFrom_closing`: the three cuts.
* `parameters_eq`: blank pieces contribute nothing, so dropping them first changes nothing.
-/

namespace DartUnion.Source

open DartUnion.Text DartUnion.Dart

/-- The scan does not cut within the text. -/
def Quiet : Scan → List Char → Prop
  | _, [] => True
  | st, c :: s => st.cuts c = false ∧ Quiet (st.after c) s

/-- The state behind a text. -/
def Scan.run (st : Scan) (s : List Char) : Scan := s.foldl Scan.after st

/-- The state in front of a piece of an open group; `positional` says that none is open. -/
def Scan.fresh (g : Group) : Scan := { inside := g, group := g }

/-- The state behind the bracket that closes a group. -/
def Scan.closed (g : Group) : Scan := { group := g }

/-- The parameters that a scan finds in the rest of a list. -/
def parametersFrom (st : Scan) (s : List Char) : List Parameter :=
  ((cutPieces st s).1 :: (cutPieces st s).2).filterMap Piece.parameter?

/-! ## Quiet text -/

theorem after_of_not_cuts {st : Scan} {c : Char} (h : st.cuts c = false) :
    st.after c = { st with depth := depthAfter st.depth c, blank := st.blank && isBlank c } := by
  simp only [Scan.cuts, Bool.or_eq_false_iff, Option.isSome_eq_false_iff, Option.isNone_iff_eq_none]
    at h
  obtain ⟨⟨ho, hc⟩, hs⟩ := h
  simp only [Scan.after, ho, hc, hs, Bool.false_eq_true, if_false]

theorem group_cutPieces (st : Scan) (s : List Char) : (cutPieces st s).1.group = st.group := by
  cases s with
  | nil => rfl
  | cons c s =>
    rw [cutPieces]
    split <;> rfl

/-- Quiet text belongs to the piece at hand. -/
theorem cutPieces_append {st : Scan} {t : List Char} (h : Quiet st t) (s : List Char) :
    cutPieces st (t ++ s) =
      (⟨t ++ (cutPieces (st.run t) s).1.text, st.group⟩, (cutPieces (st.run t) s).2) ∧
      (st.run t).group = st.group := by
  induction t generalizing st with
  | nil =>
    refine ⟨?_, rfl⟩
    rw [← group_cutPieces st s]
    rfl
  | cons c t ih =>
    obtain ⟨hc, ht⟩ := h
    have hg : (st.after c).group = st.group := by rw [after_of_not_cuts hc]
    obtain ⟨he, hr⟩ := ih ht
    rw [hg] at he hr
    rw [List.cons_append, cutPieces, hc, he]
    exact ⟨rfl, hr⟩

theorem depth_eq_zero_iff {st : Scan} {due : List Char} (h : st.depth = due.length) :
    st.depth = 0 ↔ due = [] := by
  rw [h, List.length_eq_zero_iff]

/-- A character that guarded text may hold at this place is no cut. -/
theorem cuts_of_guarded {st : Scan} {due due' : List Char} {c : Char}
    (h : heldDueAfter? Bracket.all due c = some due') (hd : st.depth = due.length)
    (ho : st.blank = true → due = [] → c ≠ '[' ∧ c ≠ '{') : st.cuts c = false := by
  unfold heldDueAfter? at h
  split at h
  · cases h
  · next hcomma =>
    have hopens : st.opens? c = none := by
      unfold Scan.opens?
      split
      · next hst =>
        simp only [Bool.and_eq_true, beq_iff_eq] at hst
        obtain ⟨h₁, h₂⟩ := ho hst.2 ((depth_eq_zero_iff hd).1 hst.1.1)
        rw [if_neg h₁, if_neg h₂]
      · rfl
    have hcloses : st.closes c = false := by
      rw [Bool.eq_false_iff]
      intro hst
      simp only [Scan.closes, Bool.and_eq_true, Bool.or_eq_true, beq_iff_eq] at hst
      have hclosing : isClosing c = true := by
        rcases hst.1.1 with rfl | rfl <;> rfl
      exact due_ne_nil_of_isClosing hclosing h ((depth_eq_zero_iff hd).1 hst.1.2)
    have hseparates : st.separates c = false := by
      rw [Bool.eq_false_iff]
      intro hst
      simp only [Scan.separates, Bool.and_eq_true, beq_iff_eq] at hst
      exact hcomma ⟨hst.1, (depth_eq_zero_iff hd).1 hst.2⟩
    rw [Scan.cuts, hopens, hcloses, hseparates]
    rfl

/-- A scan through guarded text, behind brackets that are still due. -/
theorem quiet_of_due {st : Scan} {due due' : List Char} {s : List Char}
    (h : s.foldlM (heldDueAfter? Bracket.all) due = some due') (hd : st.depth = due.length)
    (ho : st.blank = true → due = [] → ∀ c, (trimStart s).head? = some c → c ≠ '[' ∧ c ≠ '{') :
    Quiet st s ∧
      st.run s = { st with depth := due'.length, blank := st.blank && allBlank s } := by
  induction s generalizing st due with
  | nil =>
    obtain rfl : due = due' := Option.some.inj h
    refine ⟨trivial, ?_⟩
    rw [← hd]
    simp [Scan.run, allBlank]
  | cons c s ih =>
    rw [List.foldlM_cons] at h
    obtain ⟨due₁, h₁, h₂⟩ := Option.bind_eq_some_iff.1 h
    have hcuts : st.cuts c = false := cuts_of_guarded h₁ hd fun hb hn => by
      by_cases hc : isBlank c = true
      · exact ⟨ne_of_isBlank hc rfl, ne_of_isBlank hc rfl⟩
      · exact ho hb hn c (by rw [trimStart_of_head (Bool.eq_false_iff.2 hc)]; rfl)
    have hdue : dueAfter? Bracket.all due c = some due₁ := dueAfter?_of_held h₁
    have hafter := after_of_not_cuts hcuts
    have hdepth : (st.after c).depth = due₁.length := by
      rw [hafter]
      show depthAfter st.depth c = _
      rw [hd]
      exact depthAfter_of_dueAfter? hdue
    obtain ⟨hq, hr⟩ := ih h₂ hdepth fun hb hn => by
      rw [hafter] at hb
      obtain ⟨hb, hc⟩ := Bool.and_eq_true_iff.1 hb
      have : due = [] := by
        rw [dueAfter?_of_neutral (neutral_of_isBlank hc)] at hdue
        rw [Option.some.inj hdue, hn]
      intro d hd'
      refine ho hb this d ?_
      rw [← List.singleton_append, trimStart_of_isGap]
      · exact hd'
      · intro e he
        rw [List.mem_singleton.1 he]
        exact hc
    refine ⟨⟨hcuts, hq⟩, ?_⟩
    show (st.after c).run s = _
    rw [hr, hafter]
    simp [allBlank, Bool.and_assoc]

/-- **Guarded text is quiet** where nothing is nested, unless it starts like a group. -/
theorem quiet_of_guarded {st : Scan} {s : List Char} (h : Guarded s) (hd : st.depth = 0)
    (ho : ∀ c, (trimStart s).head? = some c → c ≠ '[' ∧ c ≠ '{') :
    Quiet st s ∧ st.run s = { st with blank := st.blank && allBlank s } := by
  obtain ⟨hq, hr⟩ := quiet_of_due h hd fun _ _ => ho
  refine ⟨hq, ?_⟩
  rw [hr, List.length_nil, ← hd]

/-! ## Reading piece by piece -/

theorem parametersFrom_append {st : Scan} {t : List Char} (h : Quiet st t) (s : List Char) :
    parametersFrom st (t ++ s) =
      (Piece.parameter? ⟨t ++ (cutPieces (st.run t) s).1.text, st.group⟩).toList ++
        (cutPieces (st.run t) s).2.filterMap Piece.parameter? := by
  rw [parametersFrom, (cutPieces_append h s).1, List.filterMap_cons]
  cases Piece.parameter? ⟨t ++ (cutPieces (st.run t) s).1.text, st.group⟩ <;> rfl

/-- **The piece at hand is read by itself**, up to the character that cuts it off. -/
theorem parametersFrom_cut {st : Scan} {t : List Char} (h : Quiet st t) {c : Char}
    (hc : (st.run t).cuts c = true) (s : List Char) :
    parametersFrom st (t ++ c :: s) =
      (Piece.parameter? ⟨t, st.group⟩).toList ++ parametersFrom ((st.run t).after c) s := by
  rw [parametersFrom_append h, cutPieces, if_pos hc, List.append_nil]
  rfl

/-- The last piece ends with the list. -/
theorem parametersFrom_end {st : Scan} {t : List Char} (h : Quiet st t) :
    parametersFrom st t = (Piece.parameter? ⟨t, st.group⟩).toList := by
  have := parametersFrom_append h []
  rw [List.append_nil] at this
  rw [this, cutPieces, List.append_nil, List.filterMap_nil, List.append_nil]

/-- A blank piece is no parameter. -/
theorem parameter?_of_isGap {s : List Char} (h : IsGap s) (g : Group) :
    Piece.parameter? ⟨s, g⟩ = none := by
  unfold Piece.parameter?
  rw [trim_of_isGap h, dropAnnotations]
  rfl

/-- **Blank pieces contribute nothing.** -/
theorem parameters_eq (s : List Char) : parameters s = parametersFrom (.fresh .positional) s := by
  rw [parameters, pieces, List.filterMap_filter]
  refine congrArg (List.filterMap · _) ?_
  funext p
  split
  · rfl
  · next hp =>
    rw [Bool.not_eq_true, Bool.not_eq_false'] at hp
    have hgap : IsGap p.text := List.all_eq_true.1 hp
    exact (parameter?_of_isGap hgap p.group).symm

/-! ## The three cuts -/

section

variable {st : Scan} {t : List Char}

/-- A comma cuts the piece at hand off; the next one stands in the group that is open. -/
theorem parametersFrom_comma (h : Guarded t) (hd : st.depth = 0)
    (ho : ∀ c, (trimStart t).head? = some c → c ≠ '[' ∧ c ≠ '{') (s : List Char) :
    parametersFrom st (t ++ ',' :: s) =
      (Piece.parameter? ⟨t, st.group⟩).toList ++ parametersFrom (.fresh st.inside) s := by
  obtain ⟨hq, hr⟩ := quiet_of_guarded h hd ho
  have hdepth : (st.run t).depth = 0 := by rw [hr]; exact hd
  have hopens : (st.run t).opens? ',' = none := by
    unfold Scan.opens?
    split <;> rfl
  have hseparates : (st.run t).separates ',' = true := by
    rw [Scan.separates, hdepth]
    rfl
  rw [parametersFrom_cut hq (by rw [Scan.cuts, hseparates, Bool.or_true])]
  congr 2
  rw [Scan.after, hopens, hseparates, hr]
  simp [Scan.closes, Scan.fresh, hd]

/-- The last piece of a list. -/
theorem parametersFrom_last (h : Guarded t) (hd : st.depth = 0)
    (ho : ∀ c, (trimStart t).head? = some c → c ≠ '[' ∧ c ≠ '{') :
    parametersFrom st t = (Piece.parameter? ⟨t, st.group⟩).toList :=
  parametersFrom_end (quiet_of_guarded h hd ho).1

/-- A bracket closes the group that is open. -/
theorem parametersFrom_closing {g : Group} (hg : g ≠ .positional) {c : Char}
    (hc : c = ']' ∨ c = '}') (h : Guarded t)
    (ho : ∀ c, (trimStart t).head? = some c → c ≠ '[' ∧ c ≠ '{') (s : List Char) :
    parametersFrom (.fresh g) (t ++ c :: s) =
      (Piece.parameter? ⟨t, g⟩).toList ++ parametersFrom (.closed g) s := by
  obtain ⟨hq, hr⟩ := @quiet_of_guarded (.fresh g) t h rfl ho
  have hopens : ((Scan.fresh g).run t).opens? c = none := by
    unfold Scan.opens?
    split
    · rcases hc with rfl | rfl <;> rfl
    · rfl
  have hcloses : ((Scan.fresh g).run t).closes c = true := by
    rw [Scan.closes, hr]
    rcases hc with rfl | rfl <;> cases g <;> first | rfl | exact absurd rfl hg
  rw [parametersFrom_cut hq (by rw [Scan.cuts, hcloses, Bool.or_true, Bool.true_or])]
  congr 2
  rw [Scan.after, hopens, hcloses, hr]
  rfl

/-- A bracket in front of a piece opens a group. -/
theorem parametersFrom_opening {gap : List Char} (h : IsGap gap) {c : Char} {g : Group}
    (hg : (Scan.fresh .positional).opens? c = some g) (s : List Char) :
    parametersFrom (.fresh .positional) (gap ++ c :: s) = parametersFrom (.fresh g) s := by
  have htrim : trimStart gap = [] := trimStart_eq_nil_iff.2 (List.all_eq_true.2 h)
  have hblank : allBlank gap = true := List.all_eq_true.2 h
  obtain ⟨hq, hr⟩ := @quiet_of_guarded (.fresh .positional) gap (guarded_of_isGap h) rfl fun c hc => by
    rw [htrim] at hc
    cases hc
  have hst : (Scan.fresh .positional).run gap = .fresh .positional := by
    rw [hr, hblank]
    rfl
  rw [parametersFrom_cut hq (by rw [hst, Scan.cuts, hg]; rfl), parameter?_of_isGap h, hst,
    Scan.after, hg]
  rfl

end

end DartUnion.Source
