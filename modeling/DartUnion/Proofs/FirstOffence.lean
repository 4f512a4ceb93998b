import DartUnion.Proofs.DistinctNames

/-!
# The offence that is reported

The check stops at the first variant that cannot stand behind the ones before it and reports what is
wrong with it. Several things can be wrong with one variant; then a reserved label is reported before
a repeated one, that before a repeated type name, and a repeated parameter name last.

* `Offends earlier v`: the variant cannot stand behind the earlier ones.
* `IsOffence earlier v o`: what is reported of such a variant.
* `Declaration.OffendsAt d i`: the variant at a place of a declaration offends.

Results:
* `firstRepeat?_eq_some_iff`: the name that is found is the earliest that equals one before it.
* `offence?_eq_some_iff`: one variant is judged by the first of the four rules that it breaks.
* `firstOffence?_eq_some_iff`: the variant that is judged is the first that offends.
* `check_reports_first`: **the check is exact and reports the first offence**, which nothing behind it
  changes.
-/

namespace DartUnion

/-- The variant cannot stand behind the earlier ones. -/
def Offends (earlier : List Variant) (v : Variant) : Prop :=
  v.label = reservedLabel ∨ v.label ∈ earlier.map Variant.label ∨
    v.typeName ∈ earlier.map Variant.typeName ∨ ¬ (v.parameters.map Parameter.name).Nodup

/-- What is reported of a variant behind the earlier ones. The parameter name is the earliest that
equals one before it: those in front of it differ. -/
inductive IsOffence (earlier : List Variant) (v : Variant) : Offence → Prop
  | reserved : v.label = reservedLabel → IsOffence earlier v (.reserved v.label)
  | label : v.label ≠ reservedLabel → v.label ∈ earlier.map Variant.label →
      IsOffence earlier v (.repeated .label v.label)
  | typeName : v.label ≠ reservedLabel → v.label ∉ earlier.map Variant.label →
      v.typeName ∈ earlier.map Variant.typeName →
      IsOffence earlier v (.repeated .typeName v.typeName)
  | parameter {before after : List String} {name : String} : v.label ≠ reservedLabel →
      v.label ∉ earlier.map Variant.label → v.typeName ∉ earlier.map Variant.typeName →
      v.parameters.map Parameter.name = before ++ name :: after → before.Nodup → name ∈ before →
      IsOffence earlier v (.repeated .parameter name)

/-- The variant at this place cannot stand behind the ones before it. -/
def Declaration.OffendsAt (d : Declaration) (i : Nat) : Prop :=
  ∃ v, d.variants[i]? = some v ∧ Offends (d.variants.take i) v

/-! ## One list of names -/

/-- **The name that is found** is the first that equals one before it or one of `seen`. -/
theorem firstRepeat?_eq_some_iff {seen ns : List String} {n : String} :
    firstRepeat? seen ns = some n ↔
      ∃ before after, ns = before ++ n :: after ∧ firstRepeat? seen before = none ∧
        (n ∈ before ∨ n ∈ seen) := by
  induction ns generalizing seen with
  | nil => simp [firstRepeat?]
  | cons m ns ih =>
    rw [firstRepeat?]
    by_cases hm : m ∈ seen
    · rw [if_pos hm]
      constructor
      · intro h
        obtain rfl := Option.some.inj h
        exact ⟨[], ns, rfl, rfl, .inr hm⟩
      · rintro ⟨before, after, hns, hnone, -⟩
        cases before with
        | nil => rw [(List.cons.inj hns).1]
        | cons k before =>
          obtain ⟨rfl, -⟩ := List.cons.inj hns
          rw [firstRepeat?, if_pos hm] at hnone
          cases hnone
    · rw [if_neg hm, ih]
      constructor
      · rintro ⟨before, after, rfl, hnone, hn⟩
        refine ⟨m :: before, after, rfl, ?_, ?_⟩
        · rw [firstRepeat?, if_neg hm, hnone]
        · rw [List.mem_cons] at hn ⊢
          rwa [or_assoc, or_left_comm]
      · rintro ⟨before, after, hns, hnone, hn⟩
        cases before with
        | nil =>
          rw [(List.cons.inj hns).1] at hm
          exact absurd hn (by simp [hm])
        | cons k before =>
          obtain ⟨rfl, rfl⟩ := List.cons.inj hns
          rw [firstRepeat?, if_neg hm] at hnone
          rw [List.mem_cons, or_assoc, or_left_comm, ← List.mem_cons] at hn
          exact ⟨before, after, rfl, hnone, hn⟩

/-- Of one list it is the earliest name that equals one before it. -/
theorem firstRepeat?_nil_eq_some_iff {ns : List String} {n : String} :
    firstRepeat? [] ns = some n ↔
      ∃ before after, ns = before ++ n :: after ∧ before.Nodup ∧ n ∈ before := by
  simp only [firstRepeat?_eq_some_iff, firstRepeat?_eq_none_iff, List.not_mem_nil, or_false,
    not_false_eq_true, implies_true, and_true]

/-! ## One variant -/

variable {earlier vs : List Variant} {v : Variant} {o : Offence}

/-- **A variant is judged** by the first of the four rules that it breaks. -/
theorem offence?_eq_some_iff : offence? earlier v = some o ↔ IsOffence earlier v o := by
  constructor
  · intro h
    unfold offence? at h
    by_cases hreserved : v.label = reservedLabel
    · rw [if_pos hreserved] at h
      obtain rfl := Option.some.inj h
      exact .reserved hreserved
    rw [if_neg hreserved] at h
    by_cases hlabel : v.label ∈ earlier.map Variant.label
    · rw [if_pos hlabel] at h
      obtain rfl := Option.some.inj h
      exact .label hreserved hlabel
    rw [if_neg hlabel] at h
    by_cases htype : v.typeName ∈ earlier.map Variant.typeName
    · rw [if_pos htype] at h
      obtain rfl := Option.some.inj h
      exact .typeName hreserved hlabel htype
    rw [if_neg htype] at h
    obtain ⟨name, hname, rfl⟩ := Option.map_eq_some_iff.1 h
    obtain ⟨before, after, hsplit, hnodup, hmem⟩ := firstRepeat?_nil_eq_some_iff.1 hname
    exact .parameter hreserved hlabel htype hsplit hnodup hmem
  · intro h
    unfold offence?
    cases h with
    | reserved hreserved => rw [if_pos hreserved]
    | label hreserved hlabel => rw [if_neg hreserved, if_pos hlabel]
    | typeName hreserved hlabel htype => rw [if_neg hreserved, if_neg hlabel, if_pos htype]
    | parameter hreserved hlabel htype hsplit hnodup hmem =>
      have hname := firstRepeat?_nil_eq_some_iff.2 ⟨_, _, hsplit, hnodup, hmem⟩
      rw [if_neg hreserved, if_neg hlabel, if_neg htype, hname, Option.map_some]

theorem offence?_eq_none_iff_not_offends : offence? earlier v = none ↔ ¬ Offends earlier v := by
  rw [offence?_eq_none_iff, Offends, not_or, not_or, not_or, Decidable.not_not]

/-- The order of the earlier variants does not matter. -/
theorem offence?_reverse : offence? earlier.reverse v = offence? earlier v := by
  unfold offence?
  simp only [List.map_reverse, List.mem_reverse]

/-! ## All variants -/

/-- No variant is an offence exactly when each can stand behind the ones before it. -/
theorem firstOffence?_eq_none_iff_forall : firstOffence? earlier vs = none ↔
    ∀ i v, vs[i]? = some v → offence? ((vs.take i).reverse ++ earlier) v = none := by
  induction vs generalizing earlier with
  | nil => simp [firstOffence?]
  | cons w vs ih =>
    rw [firstOffence?, Option.or_eq_none_iff, ih]
    constructor
    · rintro ⟨hw, hvs⟩ i v hv
      cases i with
      | zero =>
        obtain rfl : w = v := Option.some.inj hv
        exact hw
      | succ i =>
        rw [List.take_succ_cons, List.reverse_cons, List.append_assoc]
        exact hvs i v hv
    · intro h
      refine ⟨h 0 w rfl, fun i v hv => ?_⟩
      have hnext := h (i + 1) v hv
      rwa [List.take_succ_cons, List.reverse_cons, List.append_assoc] at hnext

/-- **The variant that is judged** is the first with an offence behind the ones before it. -/
theorem firstOffence?_eq_some_iff : firstOffence? earlier vs = some o ↔
    ∃ i v, vs[i]? = some v ∧ firstOffence? earlier (vs.take i) = none ∧
      offence? ((vs.take i).reverse ++ earlier) v = some o := by
  induction vs generalizing earlier with
  | nil => simp [firstOffence?]
  | cons w vs ih =>
    rw [firstOffence?, Option.or_eq_some_iff, ih]
    constructor
    · rintro (hw | ⟨hw, i, v, hv, hnone, ho⟩)
      · exact ⟨0, w, rfl, rfl, hw⟩
      · refine ⟨i + 1, v, hv, ?_, ?_⟩
        · rw [List.take_succ_cons, firstOffence?, hw, hnone]
          rfl
        · rwa [List.take_succ_cons, List.reverse_cons, List.append_assoc]
    · rintro ⟨i, v, hv, hnone, ho⟩
      cases i with
      | zero =>
        obtain rfl : w = v := Option.some.inj hv
        exact .inl ho
      | succ i =>
        rw [List.take_succ_cons, firstOffence?, Option.or_eq_none_iff] at hnone
        rw [List.take_succ_cons, List.reverse_cons, List.append_assoc] at ho
        exact .inr ⟨hnone.1, i, v, hv, hnone.2, ho⟩

/-- No variant in front of a place is an offence exactly when none of them offends. -/
theorem firstOffence?_take_eq_none_iff {d : Declaration} {i : Nat} :
    firstOffence? [] (d.variants.take i) = none ↔ ∀ j < i, ¬ d.OffendsAt j := by
  rw [firstOffence?_eq_none_iff_forall]
  constructor
  · rintro h j hj ⟨v, hv, hoffends⟩
    have hnone := h j v (by rwa [List.getElem?_take_of_lt hj])
    rw [List.append_nil, offence?_reverse, List.take_take, Nat.min_eq_left (Nat.le_of_lt hj)] at hnone
    exact offence?_eq_none_iff_not_offends.1 hnone hoffends
  · intro h j v hv
    by_cases hj : j < i
    · rw [List.getElem?_take_of_lt hj] at hv
      rw [List.append_nil, offence?_reverse, List.take_take, Nat.min_eq_left (Nat.le_of_lt hj),
        offence?_eq_none_iff_not_offends]
      exact fun hoffends => h j hj ⟨v, hv, hoffends⟩
    · rw [List.getElem?_take_eq_none (Nat.not_lt.1 hj)] at hv
      cases hv

theorem check_eq_error_iff {d : Declaration} {f : Failure} :
    d.check = .error f ↔ ∃ o, d.offence? = some o ∧ f = .clash d.name o := by
  unfold Declaration.check
  cases d.offence? with
  | none => exact iff_of_false (fun h => by cases h) fun ⟨_, h, _⟩ => by cases h
  | some o =>
    constructor
    · intro h
      exact ⟨o, rfl, (Except.error.inj h).symm⟩
    · rintro ⟨_, ho, rfl⟩
      rw [Option.some.inj ho]

/-- **The check is exact and reports the first offence.** It passes when all names are distinct and
none is reserved. Otherwise the failure is about the first variant that cannot stand behind the ones
before it, and variants put behind them all do not change it. -/
theorem check_reports_first (d : Declaration) :
    (d.check = .ok () ↔ d.NamesDistinct) ∧
      (∀ f, d.check = .error f ↔ ∃ i v o, d.variants[i]? = some v ∧ (∀ j < i, ¬ d.OffendsAt j) ∧
        IsOffence (d.variants.take i) v o ∧ f = .clash d.name o) ∧
      ∀ f vs, d.check = .error f →
        Declaration.check { d with variants := d.variants ++ vs } = .error f := by
  refine ⟨check_eq_ok_iff_namesDistinct, fun f => ?_, fun f vs h => ?_⟩
  · rw [check_eq_error_iff, Declaration.offence?]
    simp only [firstOffence?_eq_some_iff, firstOffence?_take_eq_none_iff, List.append_nil,
      offence?_reverse, offence?_eq_some_iff]
    constructor
    · rintro ⟨o, ⟨i, v, hv, hfirst, ho⟩, hf⟩
      exact ⟨i, v, o, hv, hfirst, ho, hf⟩
    · rintro ⟨i, v, o, hv, hfirst, ho, hf⟩
      exact ⟨o, ⟨i, v, hv, hfirst, ho⟩, hf⟩
  · obtain ⟨o, ho, rfl⟩ := check_eq_error_iff.1 h
    exact check_eq_error_iff.2 ⟨o, firstOffence?_append ho, rfl⟩

/-- The second variant repeats its label, its type name and a parameter name. -/
example : Declaration.check ⟨"U", [⟨"A", "a", []⟩, ⟨"A", "a", [⟨"x", "int", none, .positional⟩,
    ⟨"x", "int", none, .named⟩]⟩]⟩ = .error (.clash "U" (.repeated .label "a")) := rfl

end DartUnion
