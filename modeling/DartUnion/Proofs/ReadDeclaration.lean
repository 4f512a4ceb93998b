import DartUnion.Proofs.DistinctNames
import DartUnion.Proofs.KeptText

/-!
# What can be relied on of a declaration that was read

Reading drops what it does not understand and never fails for it, so whatever the source was, what
comes out is in order: every name belongs to its class, types and defaults are trimmed text that
fits on a line in front of a semicolon, and the names are distinct (`Declaration.Tidy`).

* `tidy_of_parameter?`: a piece that is a parameter has a name and tidy texts.
* `names_of_variant?`: the names of a factory belong to their classes.
* `unionName_of_findUnionName?`: so does the name in a header.
* `tidy_of_ofSource`: **every declaration that is read is tidy**, whatever the source.
-/

namespace DartUnion

open Text Dart Source

/-- A text that is kept as it is written: there is something to it, no blank stands at either end,
and it neither ends its line nor its statement. -/
structure Source.IsKeptText (s : List Char) : Prop where
  ne_nil : s ≠ []
  trimmed : IsTrimmed s
  plain : ∀ c ∈ s, c ≠ '\n' ∧ c ≠ '\r' ∧ c ≠ ';'

/-- A parameter with a name, a type and perhaps a default. -/
structure Parameter.Tidy (p : Parameter) : Prop where
  name : identifier.accepts p.name.toList = true
  kept : ∀ s, p.Keeps s → IsKeptText s

/-- A variant with names, the parameters having distinct ones. -/
structure Variant.Tidy (v : Variant) : Prop where
  typeName : caseName.accepts v.typeName.toList = true
  label : identifier.accepts v.label.toList = true
  free : v.label ≠ reservedLabel
  distinct : (v.parameters.map Parameter.name).Nodup
  parameters : ∀ p ∈ v.parameters, p.Tidy

/-- A union with a name, its variants having distinct labels and distinct types. -/
structure Declaration.Tidy (d : Declaration) : Prop where
  name : unionName.accepts d.name.toList = true
  labels : (d.variants.map Variant.label).Nodup
  typeNames : (d.variants.map Variant.typeName).Nodup
  variants : ∀ v ∈ d.variants, v.Tidy

namespace Source

/-! ## Parameters -/

/-- **A piece that is a parameter** has a name, and its texts are trimmed and not empty. -/
theorem tidy_of_parameter? {p : Piece} {q : Parameter} (h : p.parameter? = some q) :
    identifier.accepts q.name.toList = true ∧ ∀ s, q.Keeps s → s ≠ [] ∧ IsTrimmed s := by
  obtain ⟨declared, value, hparts, hread, hdefault⟩ := eq_of_parameter? h
  obtain ⟨-, hname, hne, htrimmed⟩ := eq_of_typeAndName? hread
  refine ⟨hname, ?_⟩
  rintro s (_ | @⟨d, hd⟩)
  · exact ⟨hne, htrimmed⟩
  · obtain ⟨rfl, hvalue⟩ := eq_of_defaultValue hdefault hd
    refine ⟨hvalue, ?_⟩
    rcases hparts with ⟨-, hnil⟩ | ⟨x, y, -, -, hy⟩
    · exact absurd hnil hvalue
    · rw [hy]
      exact isTrimmed_trim y

/-- Every parameter of a list comes from one of its pieces. -/
theorem exists_piece_of_mem_parameters {s : List Char} {p : Parameter} (h : p ∈ parameters s) :
    ∃ piece : Piece, piece.parameter? = some p := by
  obtain ⟨piece, -, hp⟩ := List.mem_filterMap.1 h
  exact ⟨piece, hp⟩

/-! ## Factories and headers -/

theorem accepts_of_scan? {k : NameClass} {s name rest : List Char}
    (h : k.scan? s = some (name, rest)) : k.accepts name = true :=
  (NameClass.scan?_eq_some h).1

/-- **The names of a factory belong to their classes.** -/
theorem names_of_variant? {fragment : List Char} {v : Variant} (h : variant? fragment = some v) :
    caseName.accepts v.typeName.toList = true ∧ identifier.accepts v.label.toList = true := by
  unfold variant? at h
  simp only [Option.bind_eq_bind, Option.bind_eq_some_iff, Prod.exists] at h
  obtain ⟨case, hcase, label, behind, hhead, h⟩ := h
  obtain ⟨a, b, -, hbehind⟩ := eq_of_redirectedCase? hcase
  rw [← Option.some.inj h]
  simp only [String.toList_ofList]
  exact ⟨(eq_of_caseBehind? hbehind).1, (eq_of_head? hhead).1⟩

/-- **The name in a header is the name of a union.** -/
theorem unionName_of_findUnionName? {before : Option Char} {s name : List Char}
    (h : findUnionName? before s = some name) : unionName.accepts name = true := by
  induction s generalizing before with
  | nil => cases h
  | cons c s ih =>
    rw [findUnionName?] at h
    split at h
    · next other hother =>
      obtain rfl := Option.some.inj h
      split at hother
      · unfold headerName? at hother
        simp only [Option.bind_eq_bind, Option.bind_eq_some_iff, Prod.exists] at hother
        obtain ⟨s₁, -, s₂, -, name, rest, hscan, hname⟩ := hother
        rw [← Option.some.inj hname]
        exact accepts_of_scan? hscan
      · cases hother
    · exact ih h

end Source

/-! ## Declarations -/

/-- Every parameter of a variant in the source is tidy. -/
theorem tidy_of_mem_variants {s : List Char} {v : Variant} (hv : v ∈ variants s) {p : Parameter}
    (hp : p ∈ v.parameters) : p.Tidy := by
  have hplain := fun t (ht : p.Keeps t) => plain_of_mem_variants hv hp ht
  obtain ⟨fragment, -, hvariant⟩ := List.mem_filterMap.1 hv
  obtain ⟨-, list, -, -, hlist⟩ := mem_parameters_of_variant? hvariant hp
  obtain ⟨piece, hpiece⟩ := exists_piece_of_mem_parameters hlist
  obtain ⟨hname, hkept⟩ := tidy_of_parameter? hpiece
  exact ⟨hname, fun t ht => ⟨(hkept t ht).1, (hkept t ht).2, hplain t ht⟩⟩

/-- What is read is the union of the text without comments, and it has passed the check. -/
theorem eq_of_ofSource {source : String} {d : Declaration}
    (h : Declaration.ofSource source = .ok d) :
    union? (stripComments source.toList) = some d ∧ d.check = .ok () := by
  unfold Declaration.ofSource at h
  split at h
  · cases h
  · next other hother =>
    cases hcheck : other.check with
    | error failure =>
      rw [hcheck] at h
      cases h
    | ok u =>
      rw [hcheck] at h
      obtain rfl : other = d := Except.ok.inj h
      exact ⟨hother, hcheck⟩

/-- **Every declaration that is read is tidy**, whatever the source. -/
theorem tidy_of_ofSource {source : String} {d : Declaration}
    (h : Declaration.ofSource source = .ok d) : d.Tidy := by
  obtain ⟨hunion, hcheck⟩ := eq_of_ofSource h
  obtain ⟨hlabels, htypes, hreserved, hparameters⟩ := check_eq_ok_iff_namesDistinct.1 hcheck
  obtain ⟨name, hname, rfl⟩ := Option.map_eq_some_iff.1 hunion
  refine ⟨?_, hlabels, htypes, fun v hv => ?_⟩
  · rw [String.toList_ofList]
    exact unionName_of_findUnionName? hname
  · obtain ⟨fragment, -, hvariant⟩ := List.mem_filterMap.1 hv
    obtain ⟨htype, hlabel⟩ := names_of_variant? hvariant
    exact ⟨htype, hlabel, hreserved v hv, hparameters v hv, fun p hp => tidy_of_mem_variants hv hp⟩

/-- The declaration in a source with comments, junk, unbalanced brackets, modifiers and an
annotation. -/
theorem tidy_of_ofSource_junk :
    Declaration.ofSource
        "// class No \x7b\nabstract class Üs class Us9_ \x7b ;=;\n factory Us.a$(@A(1) final\u00a0Map<K, V>\t k\r\n, 42, [int i = 1 ,>]\x7d) => _Ca() ;factory Us.b(\x7brequired ) = B ; factory U" =
      .ok ⟨"Us9", [⟨"_Ca", "a$", [⟨"k", "Map<K, V>", none, .positional⟩,
        ⟨"i", "int", some "1", .optionalPositional⟩]⟩, ⟨"B", "b", []⟩]⟩ ∧
    (⟨"Us9", [⟨"_Ca", "a$", [⟨"k", "Map<K, V>", none, .positional⟩,
        ⟨"i", "int", some "1", .optionalPositional⟩]⟩, ⟨"B", "b", []⟩]⟩ : Declaration).Tidy := by
  have hread : Declaration.ofSource
        "// class No \x7b\nabstract class Üs class Us9_ \x7b ;=;\n factory Us.a$(@A(1) final\u00a0Map<K, V>\t k\r\n, 42, [int i = 1 ,>]\x7d) => _Ca() ;factory Us.b(\x7brequired ) = B ; factory U" =
      .ok ⟨"Us9", [⟨"_Ca", "a$", [⟨"k", "Map<K, V>", none, .positional⟩,
        ⟨"i", "int", some "1", .optionalPositional⟩]⟩, ⟨"B", "b", []⟩]⟩ :=
    eq_ok_of_toOption (by decide +kernel)
  exact ⟨hread, tidy_of_ofSource hread⟩

end DartUnion
