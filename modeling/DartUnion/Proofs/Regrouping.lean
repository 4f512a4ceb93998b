import DartUnion.Failure
import DartUnion.Output.Case
import DartUnion.Proofs.Grammar

/-!
# Regrouped parameters

Generated code states the parameters of a case group by group: the plain ones, then `[...]`, then
`{...}`. A redirecting factory states no defaults. So what its parameter list writes are the
parameters in that order, with the defaults erased.

* `Declaration.regrouped` is a declaration with the parameters of its variants in that order.
* `check_regrouped`: regrouping brings no names together that were apart.
* `listWritten_parameterList`: **a generated parameter list writes the regrouped parameters.**
-/

namespace DartUnion

open Text Dart Source Output

/-- The parameter without its default. -/
def Parameter.erased (p : Parameter) : Parameter := { p with defaultValue := none }

/-- The parameters group by group, without their defaults. -/
def regroup (ps : List Parameter) : List Parameter :=
  (inGroup .positional ps ++ inGroup .optional ps ++ inGroup .named ps).map Parameter.erased

/-- The variant with regrouped parameters. -/
def Variant.regrouped (v : Variant) : Variant := { v with parameters := regroup v.parameters }

/-- The declaration with regrouped parameters in every variant. -/
def Declaration.regrouped (d : Declaration) : Declaration :=
  { d with variants := d.variants.map Variant.regrouped }

/-! ## Names -/

/-- No parameter is lost or added. -/
theorem perm_inGroup (ps : List Parameter) :
    (inGroup .positional ps ++ inGroup .optional ps ++ inGroup .named ps).Perm ps := by
  induction ps with
  | nil => exact List.Perm.refl []
  | cons p ps ih =>
    unfold inGroup at *
    rw [List.filter_cons, List.filter_cons, List.filter_cons]
    cases h : p.kind.group with
    | positional => exact ih.cons p
    | optional =>
      have hmiddle : (ps.filter (·.kind.group == .positional) ++
          p :: ps.filter (·.kind.group == .optional)).Perm
          (p :: (ps.filter (·.kind.group == .positional) ++
            ps.filter (·.kind.group == .optional))) := List.perm_middle
      have hnamed := hmiddle.append_right (ps.filter (·.kind.group == .named))
      exact hnamed.trans (ih.cons p)
    | named => exact List.perm_middle.trans (ih.cons p)

theorem perm_names (ps : List Parameter) :
    ((regroup ps).map Parameter.name).Perm (ps.map Parameter.name) := by
  rw [regroup, List.map_map]
  exact (perm_inGroup ps).map Parameter.name

theorem offence?_regrouped {earlier : List Variant} {v : Variant} (h : offence? earlier v = none) :
    offence? (earlier.map Variant.regrouped) v.regrouped = none := by
  obtain ⟨hreserved, hlabel, htype, hnodup⟩ := offence?_eq_none_iff.1 h
  rw [offence?_eq_none_iff, List.map_map, List.map_map]
  exact ⟨hreserved, hlabel, htype, (perm_names v.parameters).symm.nodup hnodup⟩

theorem firstOffence?_regrouped {earlier vs : List Variant} (h : firstOffence? earlier vs = none) :
    firstOffence? (earlier.map Variant.regrouped) (vs.map Variant.regrouped) = none := by
  induction vs generalizing earlier with
  | nil => rfl
  | cons v vs ih =>
    rw [firstOffence?, Option.or_eq_none_iff] at h
    rw [List.map_cons, firstOffence?, offence?_regrouped h.1, Option.none_or]
    exact ih h.2

/-- **Regrouping brings no names together** that were apart. -/
theorem check_regrouped {d : Declaration} (h : d.check = .ok ()) : d.regrouped.check = .ok () := by
  rw [check_eq_ok_iff] at h ⊢
  exact firstOffence?_regrouped h

/-! ## Parameter lists -/

/-- The texts of items with commas between them, a gap in front of each. -/
theorem commas_cons_cons (i j : String) (items : List String) :
    (commas (i :: j :: items)).toList =
      i.toList ++ ',' :: (" ".toList ++ (commas (j :: items)).toList) := by
  rw [commas, String.intercalate_cons_cons, String.toList_append, String.toList_append,
    List.append_assoc]
  rfl

theorem commas_singleton (i : String) : commas [i] = i := String.intercalate_singleton

theorem writtenAs_stated (p : Parameter) {gap : List Char} (hg : IsGap gap) :
    p.erased.WrittenAs (gap ++ (stated typed p).toList) := by
  have hspace : IsSpace " ".toList := by decide
  unfold stated typed
  by_cases hk : p.kind = .requiredNamed
  · have := @Parameter.WrittenAs.mk p.erased gap "required ".toList [] " ".toList [] [] hg
      (by rw [if_pos (show p.erased.kind = .requiredNamed from hk)]; exact .mk hspace) .absent hspace
      .absent isGap_nil
    rw [if_pos hk]
    simp only [String.toList_append, List.append_nil, List.nil_append] at this ⊢
    exact this
  · have := @Parameter.WrittenAs.mk p.erased gap [] [] " ".toList [] [] hg
      (by rw [if_neg (show p.erased.kind ≠ .requiredNamed from hk)]) .absent hspace
      .absent isGap_nil
    rw [if_neg hk]
    simp only [String.toList_append, List.append_nil, List.nil_append] at this ⊢
    exact this

/-- The members of a group, with commas between them. -/
theorem itemsWritten_commas {ps : List Parameter} (hps : ps ≠ []) {gap : List Char}
    (hg : IsGap gap) :
    ItemsWritten (ps.map Parameter.erased) (gap ++ (commas (ps.map (stated typed))).toList) := by
  induction ps generalizing gap with
  | nil => exact absurd rfl hps
  | cons p ps ih =>
    cases ps with
    | nil =>
      show ItemsWritten [p.erased] (gap ++ (commas [stated typed p]).toList)
      rw [commas_singleton]
      exact .last (writtenAs_stated p hg)
    | cons q ps =>
      show ItemsWritten (p.erased :: (q :: ps).map Parameter.erased)
        (gap ++ (commas (stated typed p :: stated typed q :: ps.map (stated typed))).toList)
      rw [commas_cons_cons, ← List.append_assoc]
      exact .cons (writtenAs_stated p hg) (ih (List.cons_ne_nil q ps) (by decide))

/-- Parts with commas between them are a parameter list. -/
theorem listWritten_commas {parts : List (List Parameter × String)}
    (h : ∀ part ∈ parts, ∀ gap, IsGap gap → PartWritten part.1 (gap ++ part.2.toList))
    {gap : List Char} (hg : IsGap gap) :
    ListWritten (parts.flatMap Prod.fst) (gap ++ (commas (parts.map Prod.snd)).toList) := by
  induction parts generalizing gap with
  | nil => exact .nil (isGap_append hg (by decide))
  | cons part parts ih =>
    have hpart := h part List.mem_cons_self gap hg
    cases parts with
    | nil =>
      show ListWritten ([part].flatMap Prod.fst) (gap ++ (commas [part.2]).toList)
      rw [commas_singleton, List.flatMap_cons, List.flatMap_nil, List.append_nil]
      exact .last hpart
    | cons next parts =>
      show ListWritten ((part :: next :: parts).flatMap Prod.fst)
        (gap ++ (commas (part.2 :: next.2 :: parts.map Prod.snd)).toList)
      rw [commas_cons_cons, ← List.append_assoc, List.flatMap_cons]
      exact .cons hpart (ih (fun p hp => h p (List.mem_cons_of_mem part hp)) (by decide))

/-- A group between its brackets, with what it writes, and nothing for a group without members. -/
def bracketedPart (opening closing : String) (ps : List Parameter) :
    List (List Parameter × String) :=
  if ps.isEmpty then []
  else [(ps.map Parameter.erased, opening ++ commas (ps.map (stated typed)) ++ closing)]

theorem map_snd_bracketedPart (opening closing : String) (ps : List Parameter) :
    (bracketedPart opening closing ps).map Prod.snd =
      bracketed opening closing (ps.map (stated typed)) := by
  cases ps <;> rfl

theorem flatMap_fst_bracketedPart (opening closing : String) (ps : List Parameter) :
    (bracketedPart opening closing ps).flatMap Prod.fst = ps.map Parameter.erased := by
  cases ps with
  | nil => rfl
  | cons p ps => exact List.append_nil _

/-- The members of a group stand in that group. -/
theorem group_of_mem_inGroup {g : Group} {ps : List Parameter} {p : Parameter}
    (h : p ∈ inGroup g ps) : p.kind.group = g :=
  eq_of_beq (List.mem_filter.1 h).2

/-- Outside of the named group nothing is required. -/
theorem map_stated (shown : Parameter → String) {g : Group} (hg : g ≠ .named)
    (ps : List Parameter) : (inGroup g ps).map shown = (inGroup g ps).map (stated shown) := by
  refine List.map_congr_left fun p hp => ?_
  rw [stated, if_neg]
  intro hk
  refine hg ?_
  rw [← group_of_mem_inGroup hp, hk]
  rfl

/-- A group between its brackets is a part of a parameter list. -/
theorem partWritten_bracketedPart (opening closing : String) {ps : List Parameter}
    (h : ∀ front s back, IsGap front → ItemsWritten (ps.map Parameter.erased) s → IsGap back →
      PartWritten (ps.map Parameter.erased)
        (front ++ (opening.toList ++ (s ++ (closing.toList ++ back))))) :
    ∀ part ∈ bracketedPart opening closing ps, ∀ gap, IsGap gap →
      PartWritten part.1 (gap ++ part.2.toList) := by
  intro part hpart gap hg
  unfold bracketedPart at hpart
  split at hpart
  · cases hpart
  · next hne =>
    rw [List.mem_singleton.1 hpart]
    have hps : ps ≠ [] := fun hn => hne (List.isEmpty_iff.2 hn)
    have := h gap _ [] hg (itemsWritten_commas hps isGap_nil) isGap_nil
    simp only [String.toList_append, List.append_assoc, List.append_nil, List.nil_append] at this ⊢
    exact this

/-- **A generated parameter list writes the regrouped parameters.** -/
theorem listWritten_parameterList (ps : List Parameter) :
    ListWritten (regroup ps) (parameterList typed ps).toList := by
  have hkind : ∀ {g : Group}, ∀ p ∈ (inGroup g ps).map Parameter.erased, p.kind.group = g := by
    intro g p hp
    obtain ⟨q, hq, rfl⟩ := List.mem_map.1 hp
    have hg := group_of_mem_inGroup hq
    exact hg
  have hparts : ∀ part ∈ (inGroup .positional ps).map (fun p => ([p.erased], stated typed p)) ++
      bracketedPart "[" "]" (inGroup .optional ps) ++
      bracketedPart "\x7b" "\x7d" (inGroup .named ps),
      ∀ gap, IsGap gap → PartWritten part.1 (gap ++ part.2.toList) := by
    intro part hpart
    rcases List.mem_append.1 hpart with hpart | hpart
    · rcases List.mem_append.1 hpart with hpart | hpart
      · obtain ⟨p, hp, rfl⟩ := List.mem_map.1 hpart
        have hg := group_of_mem_inGroup hp
        exact fun gap hgap => .positional hg (writtenAs_stated p hgap)
      · exact partWritten_bracketedPart "[" "]"
          (fun _ _ _ hf hs hb => .optional hkind hf hs hb) part hpart
    · exact partWritten_bracketedPart "\x7b" "\x7d"
        (fun _ _ _ hf hs hb => .named hkind hf hs hb) part hpart
  have hlist := listWritten_commas hparts isGap_nil
  have hfirst : (inGroup .positional ps).flatMap (fun p => [p.erased]) =
      (inGroup .positional ps).map Parameter.erased := List.map_eq_flatMap.symm
  rw [List.map_append, List.map_append, map_snd_bracketedPart, map_snd_bracketedPart, List.map_map,
    List.flatMap_append, List.flatMap_append, flatMap_fst_bracketedPart, flatMap_fst_bracketedPart,
    List.flatMap_map, hfirst, ← List.map_append, ← List.map_append] at hlist
  unfold parameterList
  rw [map_stated typed (by decide), map_stated typed (by decide)]
  exact hlist

end DartUnion
