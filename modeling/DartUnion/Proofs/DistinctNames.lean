import DartUnion.Failure

/-!
# Declarations whose names are distinct

The check goes through the variants one by one and judges each against the ones before it. What it
lets pass is a declaration in which labels are distinct and none is reserved, type names are
distinct, and each variant has parameters with distinct names (`Declaration.NamesDistinct`).

* `firstOffence?_eq_none_iff`: what it means that no variant is an offence behind others.
* `check_eq_ok_iff_namesDistinct`: **the check passes exactly when the names are distinct.**
-/

namespace DartUnion

/-- The names of a declaration are distinct where they have to be. -/
structure Declaration.NamesDistinct (d : Declaration) : Prop where
  labels : (d.variants.map Variant.label).Nodup
  typeNames : (d.variants.map Variant.typeName).Nodup
  reserved : ∀ v ∈ d.variants, v.label ≠ reservedLabel
  parameters : ∀ v ∈ d.variants, (v.parameters.map Parameter.name).Nodup

/-- Names behind others are distinct from each other and from those. -/
theorem nodup_behind_cons_iff {α : Type} {f : Variant → α} {v : Variant}
    {vs earlier : List Variant} :
    ((v :: vs).map f).Nodup ∧ (∀ w ∈ v :: vs, f w ∉ earlier.map f) ↔
      f v ∉ earlier.map f ∧ (vs.map f).Nodup ∧ ∀ w ∈ vs, f w ∉ (v :: earlier).map f := by
  rw [List.map_cons, List.nodup_cons, List.forall_mem_cons]
  constructor
  · rintro ⟨⟨hv, hvs⟩, hfree, hrest⟩
    refine ⟨hfree, hvs, fun w hw => ?_⟩
    rw [List.map_cons, List.mem_cons, not_or]
    refine ⟨fun he => hv ?_, hrest w hw⟩
    rw [← he]
    exact List.mem_map_of_mem hw
  · rintro ⟨hfree, hvs, hrest⟩
    have hsplit : ∀ w ∈ vs, f w ≠ f v ∧ f w ∉ earlier.map f := by
      intro w hw
      have := hrest w hw
      rwa [List.map_cons, List.mem_cons, not_or] at this
    refine ⟨⟨fun hv => ?_, hvs⟩, hfree, fun w hw => (hsplit w hw).2⟩
    obtain ⟨w, hw, he⟩ := List.mem_map.1 hv
    exact (hsplit w hw).1 he

/-- No variant is an offence behind others when its names are free there and differ. -/
theorem firstOffence?_eq_none_iff {earlier vs : List Variant} :
    firstOffence? earlier vs = none ↔
      ((vs.map Variant.label).Nodup ∧ ∀ v ∈ vs, v.label ∉ earlier.map Variant.label) ∧
      ((vs.map Variant.typeName).Nodup ∧ ∀ v ∈ vs, v.typeName ∉ earlier.map Variant.typeName) ∧
      (∀ v ∈ vs, v.label ≠ reservedLabel) ∧ ∀ v ∈ vs, (v.parameters.map Parameter.name).Nodup := by
  induction vs generalizing earlier with
  | nil => simp [firstOffence?]
  | cons v vs ih =>
    rw [firstOffence?, Option.or_eq_none_iff, offence?_eq_none_iff, ih, nodup_behind_cons_iff,
      nodup_behind_cons_iff, List.forall_mem_cons, List.forall_mem_cons]
    constructor
    · rintro ⟨⟨hreserved, hlabel, htype, hparameters⟩, hlabels, htypes, hrest, hall⟩
      exact ⟨⟨hlabel, hlabels⟩, ⟨htype, htypes⟩, ⟨hreserved, hrest⟩, hparameters, hall⟩
    · rintro ⟨⟨hlabel, hlabels⟩, ⟨htype, htypes⟩, ⟨hreserved, hrest⟩, hparameters, hall⟩
      exact ⟨⟨hreserved, hlabel, htype, hparameters⟩, hlabels, htypes, hrest, hall⟩

/-- **The check passes exactly when the names are distinct.** -/
theorem check_eq_ok_iff_namesDistinct {d : Declaration} : d.check = .ok () ↔ d.NamesDistinct := by
  rw [check_eq_ok_iff, Declaration.offence?, firstOffence?_eq_none_iff]
  constructor
  · rintro ⟨⟨hlabels, -⟩, ⟨htypes, -⟩, hreserved, hparameters⟩
    exact ⟨hlabels, htypes, hreserved, hparameters⟩
  · rintro ⟨hlabels, htypes, hreserved, hparameters⟩
    exact ⟨⟨hlabels, fun _ _ => List.not_mem_nil⟩, ⟨htypes, fun _ _ => List.not_mem_nil⟩, hreserved,
      hparameters⟩

end DartUnion
