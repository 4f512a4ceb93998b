import DartUnion.Declaration.Unique
import DartUnion.Output.Helper
import Mathlib.Data.List.Nodup
import Mathlib.Data.List.Perm.Subperm

/-!
# The name that helpers bind a case to

The search for this name (`binding_name`) tries `value`, `value_`, `value__` and so on, and stops at
the first that is no label. Seen as a loop it has no bound of its own. It ends because the names that
it tries are all different, so that no more of them can be labels than there are labels. Labels may be
any texts and may repeat.

* `underscored`: a name with underscores behind it.
* `Finds`: the search as a loop, without a bound.

Results:
* `le_length_of_taken`: no more names are taken than there are labels.
* `finds_iff`: the loop finds the first of the names that is no label.
* `finds_freeName`: a search that may try a name more than there are labels is the loop.
* `bindingName_first`: **the name that helpers bind is the first that is no label**, with at most as
  many underscores as there are cases.
-/

namespace DartUnion.Output

/-- The name with `k` underscores behind it. -/
def underscored (name : String) (k : Nat) : String := name ++ String.ofList (List.replicate k '_')

/-- The search for a name that is no label: one that is a label gets an underscore more. -/
inductive Finds (labels : List String) : String → String → Prop
  | free {name : String} (h : name ∉ labels) : Finds labels name name
  | taken {name found : String} (h : name ∈ labels) (hf : Finds labels (name ++ "_") found) :
      Finds labels name found

/-! ## Names with underscores -/

variable {labels : List String} {name found : String} {k : Nat}

theorem toList_underscored (name : String) (k : Nat) :
    (underscored name k).toList = name.toList ++ List.replicate k '_' := by
  rw [underscored, String.toList_append, String.toList_ofList]

theorem underscored_zero (name : String) : underscored name 0 = name :=
  String.append_empty

/-- One underscore in front of the others. -/
theorem underscored_succ (name : String) (k : Nat) :
    underscored (name ++ "_") k = underscored name (k + 1) := by
  rw [← String.toList_inj, toList_underscored, toList_underscored, String.toList_append,
    List.append_assoc]
  rfl

/-- Different numbers of underscores make different names. -/
theorem underscored_injective (name : String) : Function.Injective (underscored name) := by
  intro j k h
  have hlength := congrArg (fun s : String => s.toList.length) h
  simp only [toList_underscored, List.length_append, List.length_replicate] at hlength
  exact Nat.add_left_cancel hlength

theorem none_taken (labels : List String) (name : String) : ∀ j < 0, underscored name j ∈ labels :=
  fun j hj => absurd hj (Nat.not_lt_zero j)

/-- A name is taken, and so are the first names with one underscore more. -/
theorem taken_succ (h : name ∈ labels) (htaken : ∀ j < k, underscored (name ++ "_") j ∈ labels) :
    ∀ j < k + 1, underscored name j ∈ labels := by
  intro j hj
  cases j with
  | zero =>
    rw [underscored_zero]
    exact h
  | succ j =>
    rw [← underscored_succ]
    exact htaken j (Nat.lt_of_succ_lt_succ hj)

/-- **No more names are taken than there are labels.** -/
theorem le_length_of_taken (h : ∀ j < k, underscored name j ∈ labels) : k ≤ labels.length := by
  have hnodup : ((List.range k).map (underscored name)).Nodup :=
    List.nodup_range.map (underscored_injective name)
  have hsubset : (List.range k).map (underscored name) ⊆ labels := by
    intro s hs
    obtain ⟨j, hj, rfl⟩ := List.mem_map.1 hs
    exact h j (List.mem_range.1 hj)
  have hlength := (hnodup.subperm hsubset).length_le
  rwa [List.length_map, List.length_range] at hlength

/-! ## The search -/

/-- **The loop finds the first name that is no label.** -/
theorem finds_iff : Finds labels name found ↔
    ∃ k, found = underscored name k ∧ found ∉ labels ∧ ∀ j < k, underscored name j ∈ labels := by
  constructor
  · intro h
    induction h with
    | @free name h => exact ⟨0, (underscored_zero name).symm, h, none_taken labels name⟩
    | @taken name found h _ ih =>
      obtain ⟨k, hk, hfree, htaken⟩ := ih
      exact ⟨k + 1, hk.trans (underscored_succ name k), hfree, taken_succ h htaken⟩
  · rintro ⟨k, rfl, hfree, htaken⟩
    -- A step of the loop drops the first name, so the induction is over all names.
    induction k generalizing name with
    | zero =>
      rw [underscored_zero] at hfree ⊢
      exact .free hfree
    | succ k ih =>
      have hname : name ∈ labels := by
        rw [← underscored_zero name]
        exact htaken 0 (Nat.zero_lt_succ k)
      rw [← underscored_succ] at hfree ⊢
      refine .taken hname (ih hfree fun j hj => ?_)
      rw [underscored_succ]
      exact htaken (j + 1) (Nat.succ_lt_succ hj)

/-- The loop finds one name only. -/
theorem Finds.unique {other : String} (h : Finds labels name found) (ho : Finds labels name other) :
    other = found := by
  induction h with
  | free h =>
    cases ho with
    | free => rfl
    | taken h' => exact absurd h' h
  | taken h _ ih =>
    cases ho with
    | free h' => exact absurd h h'
    | taken _ ho => exact ih ho

/-- A search with a bound tries names that are labels, and stops at the bound or before. -/
theorem freeName_eq_underscored (labels : List String) (name : String) (spare : Nat) :
    ∃ k ≤ spare, freeName labels name spare = underscored name k ∧
      (∀ j < k, underscored name j ∈ labels) ∧ (k < spare → underscored name k ∉ labels) := by
  induction spare generalizing name with
  | zero =>
    exact ⟨0, Nat.le_refl 0, (underscored_zero name).symm, none_taken labels name,
      fun h => absurd h (Nat.lt_irrefl 0)⟩
  | succ spare ih =>
    rw [freeName]
    split
    · next h =>
      obtain ⟨k, hk, heq, htaken, hfree⟩ := ih (name ++ "_")
      rw [underscored_succ] at heq hfree
      exact ⟨k + 1, Nat.succ_le_succ hk, heq, taken_succ h htaken,
        fun hlt => hfree (Nat.lt_of_succ_lt_succ hlt)⟩
    · next h =>
      rw [← underscored_zero name] at h
      exact ⟨0, Nat.zero_le _, (underscored_zero name).symm, none_taken labels name, fun _ => h⟩

/-- **The loop ends**: with as many steps to spare as there are labels, the search with a bound never
reaches it at a name that is taken. -/
theorem finds_freeName (labels : List String) (name : String) :
    Finds labels name (freeName labels name labels.length) := by
  obtain ⟨k, hk, heq, htaken, hfree⟩ := freeName_eq_underscored labels name labels.length
  refine finds_iff.2 ⟨k, heq, fun hmem => ?_, htaken⟩
  rw [heq] at hmem
  have hall : ∀ j < k + 1, underscored name j ∈ labels := by
    intro j hj
    rcases Nat.lt_succ_iff_lt_or_eq.1 hj with hj | rfl
    · exact htaken j hj
    · exact hmem
  exact hfree (le_length_of_taken hall) hmem

theorem finds_bindingName (d : Declaration) :
    Finds (d.variants.map Variant.label) "value" (bindingName d) := by
  have := finds_freeName (d.variants.map Variant.label) "value"
  rwa [List.length_map] at this

/-- **The name that helpers bind is the first that is no label.** The loop ends, and it finds this
name and no other: `value` with some underscores behind it, no more of them than there are cases,
where every name with fewer is a label. It is not the name that the helpers keep for themselves
either. -/
theorem bindingName_first (d : Declaration) :
    (∀ found, Finds (d.variants.map Variant.label) "value" found ↔ found = bindingName d) ∧
    ∃ k ≤ d.variants.length, bindingName d = underscored "value" k ∧
      (∀ v ∈ d.variants, v.label ≠ bindingName d) ∧ bindingName d ≠ reservedLabel ∧
      ∀ j < k, ∃ v ∈ d.variants, v.label = underscored "value" j := by
  have hfinds := finds_bindingName d
  obtain ⟨k, heq, hfree, htaken⟩ := finds_iff.1 hfinds
  have hlength := le_length_of_taken htaken
  rw [List.length_map] at hlength
  refine ⟨fun found => ⟨fun h => hfinds.unique h, fun h => h ▸ hfinds⟩, k, hlength, heq,
    fun v hv he => ?_, fun he => ?_, fun j hj => List.mem_map.1 (htaken j hj)⟩
  · rw [← he] at hfree
    exact hfree (List.mem_map_of_mem hv)
  · have hhead := congrArg (fun s : String => s.toList.head?) (heq.symm.trans he)
    simp only [toList_underscored] at hhead
    cases hhead

/-- Repeated labels, and a gap among them. -/
example : bindingName ⟨"Box", [⟨"A", "value_", []⟩, ⟨"B", "value", []⟩, ⟨"C", "value", []⟩,
    ⟨"D", "value___", []⟩]⟩ = "value__" := by
  decide

end DartUnion.Output
