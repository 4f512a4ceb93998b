import DartUnion.Declaration.Basic

/-!
# Names that would clash

The generated code turns labels into constructors and helper arguments, type names into classes and
parameter names into fields, so none may repeat where the others stand beside it. The label
`orElse` is taken by the helpers for their fall-back.

* `firstOffence?` is the loop of `check_unique`: it finds the first variant with an offence. `offence?`
  is the body of the loop: it judges one variant against the ones before it.
* `reservedLabel` is the one entry of `RESERVED_LABELS`.
* `firstRepeat?_eq_none_iff`: no repeated name is found exactly when the names are distinct.
* `offence?_eq_none_iff`: a variant is no offence exactly when its names are free and differ.
* `firstOffence?_append`: what stands behind an offence does not change it.
-/

namespace DartUnion

/-- What a repeated name names. -/
inductive NameKind where
  | label
  | typeName
  | parameter
  deriving Repr, DecidableEq

/-- Why a variant cannot stand beside the ones before it. -/
inductive Offence where
  | reserved (label : String)
  | repeated (kind : NameKind) (name : String)
  deriving Repr, DecidableEq

/-- The label that the helpers keep for themselves. -/
def reservedLabel : String := "orElse"

/-- The first name that equals one before it or one of `seen`. -/
def firstRepeat? (seen : List String) : List String → Option String
  | [] => none
  | n :: ns => if n ∈ seen then some n else firstRepeat? (n :: seen) ns

/-- What is wrong with a variant behind `earlier`: a reserved label, then a repeated label, a repeated
type name, a parameter name of its own that repeats. -/
def offence? (earlier : List Variant) (v : Variant) : Option Offence :=
  if v.label = reservedLabel then some (.reserved v.label)
  else if v.label ∈ earlier.map Variant.label then some (.repeated .label v.label)
  else if v.typeName ∈ earlier.map Variant.typeName then some (.repeated .typeName v.typeName)
  else (firstRepeat? [] (v.parameters.map Parameter.name)).map (.repeated .parameter)

/-- The offence of the first variant that has one. -/
def firstOffence? (earlier : List Variant) : List Variant → Option Offence
  | [] => none
  | v :: vs => (offence? earlier v).or (firstOffence? (v :: earlier) vs)

/-- The first offence in a union. -/
def Declaration.offence? (d : Declaration) : Option Offence := firstOffence? [] d.variants

/-- No name repeats exactly when they are distinct, among themselves and from those seen. -/
theorem firstRepeat?_eq_none_iff {seen ns : List String} :
    firstRepeat? seen ns = none ↔ ns.Nodup ∧ ∀ n ∈ ns, n ∉ seen := by
  induction ns generalizing seen with
  | nil => simp [firstRepeat?]
  | cons n ns ih =>
    by_cases h : n ∈ seen
    · simp [firstRepeat?, h]
    · simp only [firstRepeat?, h, if_false, ih, List.nodup_cons, List.mem_cons]
      grind

/-- A variant is no offence when its names are free and differ. -/
theorem offence?_eq_none_iff {earlier : List Variant} {v : Variant} :
    offence? earlier v = none ↔ v.label ≠ reservedLabel ∧ v.label ∉ earlier.map Variant.label ∧
      v.typeName ∉ earlier.map Variant.typeName ∧ (v.parameters.map Parameter.name).Nodup := by
  have hnodup : firstRepeat? [] (v.parameters.map Parameter.name) = none ↔
      (v.parameters.map Parameter.name).Nodup := by
    rw [firstRepeat?_eq_none_iff]
    exact and_iff_left fun _ _ => List.not_mem_nil
  unfold offence?
  by_cases hreserved : v.label = reservedLabel
  · simp [hreserved]
  · by_cases hlabel : v.label ∈ earlier.map Variant.label
    · rw [if_neg hreserved, if_pos hlabel]
      exact iff_of_false (Option.some_ne_none _) fun h => h.2.1 hlabel
    · by_cases htype : v.typeName ∈ earlier.map Variant.typeName
      · rw [if_neg hreserved, if_neg hlabel, if_pos htype]
        exact iff_of_false (Option.some_ne_none _) fun h => h.2.2.1 htype
      · rw [if_neg hreserved, if_neg hlabel, if_neg htype, Option.map_eq_none_iff, hnodup]
        exact ⟨fun h => ⟨hreserved, hlabel, htype, h⟩, fun h => h.2.2.2⟩

/-- An offence stays the first one when more variants follow. -/
theorem firstOffence?_append {earlier vs ws : List Variant} {o : Offence}
    (h : firstOffence? earlier vs = some o) : firstOffence? earlier (vs ++ ws) = some o := by
  induction vs generalizing earlier with
  | nil => simp [firstOffence?] at h
  | cons v vs ih =>
    simp only [List.cons_append, firstOffence?] at h ⊢
    cases hv : DartUnion.offence? earlier v with
    | some o' => simpa [hv] using h
    | none =>
      rw [hv, Option.none_or] at h
      rw [Option.none_or]
      exact ih h

end DartUnion
