import DartUnion.Json.Load
import DartUnion.Proofs.JsonValues

/-!
# Models that are read as they were written

The printer writes the fields of a record in order and leaves out a default that is absent; the
reader finds every field by its name, whatever the order, and takes an absent default for none. So
a default that is absent and one that is empty stay apart.

Results:
* `reads_parameter`, `reads_variant`, `reads_declaration`: each record of a model is read as written,
  at every depth.
* `ofJson_toJson`: **the text of a model is read as that model.**
* `ofJson_toJson_append`: **so is that text with anything behind it.**
* `ofJson_toJson_and_injective`: so no two models have the same text.
-/

namespace DartUnion

namespace Json

variable {gap : List Char}

/-- A space is a gap. -/
theorem isGap_space : IsGap [' '] := by
  intro c hc
  rw [List.mem_singleton.1 hc]
  rfl

/-- The name of a kind is read as that kind. -/
theorem kindOf_kindName (k : ParamKind) : Reads (kindOf (kindName k)) [] k := by
  intro rest
  cases k <;> rfl

theorem reads_kind (k : ParamKind) (depth : Nat) (hg : IsGap gap) :
    Reads kind (gap ++ ofString (kindName k) depth) k := by
  have hname := (reads_string (kindName k)).bind (kindOf_kindName k)
  rw [List.append_nil] at hname
  exact (hname.advance '"').token rfl hg

/-- A record starts with a brace. -/
theorem ofFields_eq_cons (fields : List (String × Layout)) (depth : Nat) :
    ∃ s, ofFields fields depth = '{' :: s := by
  obtain ⟨gap', -, hblock⟩ := block_eq '{' '}' (fields.map fun f => fun depth =>
    ofString f.1 depth ++ [':', ' '] ++ f.2 depth) depth
  exact ⟨_, hblock⟩

/-- **A parameter is read as it was written.** -/
theorem reads_parameter (p : Parameter) (depth : Nat) (hg : IsGap gap) :
    Reads parameter (gap ++ ofParameter p depth) p := by
  obtain ⟨name, type, default?, k⟩ := p
  have hname := reads_text name (depth + 1) isGap_space
  have htype := reads_text type (depth + 1) isGap_space
  have hkind := reads_kind k (depth + 1) isGap_space
  have hrecord : Reads (record parameterType) (gap ++ ofParameter ⟨name, type, default?, k⟩ depth)
      ⟨some name, some type, default?.map some, some k⟩ := by
    refine reads_record hg ?_ ?_
    · refine .cons rfl rfl (hname.bind_pure _) (.cons rfl rfl (htype.bind_pure _) ?_)
      cases default? with
      | none => exact .cons rfl rfl (hkind.bind_pure _) (.nil _)
      | some value =>
        have hdefault := reads_optionalText value (depth + 1) isGap_space
        exact .cons rfl rfl (hdefault.bind_pure _) (.cons rfl rfl (hkind.bind_pure _) (.nil _))
    · cases default? <;> rfl
  have hcomplete : PartialParameter.complete ⟨some name, some type, default?.map some, some k⟩ =
      ⟨name, type, default?, k⟩ := by
    cases default? <;> rfl
  have hread := hrecord.map PartialParameter.complete
  rwa [hcomplete] at hread

/-- **A variant is read as it was written.** -/
theorem reads_variant (v : Variant) (depth : Nat) (hg : IsGap gap) :
    Reads variant (gap ++ ofVariant v depth) v := by
  have htype := reads_text v.typeName (depth + 1) isGap_space
  have hlabel := reads_text v.label (depth + 1) isGap_space
  have hparameters : Reads (list parameter)
      ([' '] ++ ofList (v.parameters.map ofParameter) (depth + 1)) v.parameters :=
    reads_list isGap_space (fun p _ => reads_parameter p _ isGap_nil) fun p _ =>
      ofFields_eq_cons _ _
  have hrecord : Reads (record variantType) (gap ++ ofVariant v depth)
      ⟨some v.typeName, some v.label, some v.parameters⟩ := by
    refine reads_record hg ?_ rfl
    refine .cons rfl rfl (htype.bind_pure _) (.cons rfl rfl (hlabel.bind_pure _) ?_)
    exact .cons rfl rfl (hparameters.bind_pure _) (.nil _)
  exact hrecord.map PartialVariant.complete

/-- **A union is read as it was written.** -/
theorem reads_declaration (d : Declaration) (depth : Nat) (hg : IsGap gap) :
    Reads declaration (gap ++ ofDeclaration d depth) d := by
  have hname := reads_text d.name (depth + 1) isGap_space
  have hvariants : Reads (list variant)
      ([' '] ++ ofList (d.variants.map ofVariant) (depth + 1)) d.variants :=
    reads_list isGap_space (fun v _ => reads_variant v _ isGap_nil) fun v _ =>
      ofFields_eq_cons _ _
  have hrecord : Reads (record declarationType) (gap ++ ofDeclaration d depth)
      ⟨some d.name, some d.variants⟩ := by
    refine reads_record hg ?_ rfl
    exact .cons rfl rfl (hname.bind_pure _) (.cons rfl rfl (hvariants.bind_pure _) (.nil _))
  exact hrecord.map PartialDeclaration.complete

end Json

/-! ## Text behind a model -/

/-- Reading a model takes its text and leaves what stands behind it. -/
theorem declaration_toJson_append (d : Declaration) (s : String) :
    Json.declaration (d.toJson ++ s).toList = .ok (d, s.toList) := by
  have hread := Json.reads_declaration d 0 Json.isGap_nil s.toList
  rw [List.nil_append] at hread
  rw [String.toList_append, Declaration.toJson, String.toList_ofList]
  exact hread

/-- What stands behind a model does not change what is read. -/
theorem ofJson_append (d : Declaration) (s : String) :
    Declaration.ofJson (d.toJson ++ s) = .ok d := by
  unfold Declaration.ofJson
  rw [declaration_toJson_append d s]

/-- **The text of a model is read as that model.** -/
theorem ofJson_toJson (d : Declaration) : Declaration.ofJson d.toJson = .ok d := by
  have hread := ofJson_append d ""
  rwa [String.append_empty] at hread

/-- **Whatever stands behind the text of a model, that model is read**: the reader stops at the end
of the record, and the rest is left as it is. -/
theorem ofJson_toJson_append (d : Declaration) (s : String) :
    Json.declaration (d.toJson ++ s).toList = .ok (d, s.toList) ∧
      Declaration.ofJson (d.toJson ++ s) = .ok d :=
  ⟨declaration_toJson_append d s, ofJson_append d s⟩

/-- A second model goes unnoticed: so it is not so that a text is refused whenever anything but
white space stands behind its model. -/
theorem ofJson_second_model :
    ¬ ∀ (d : Declaration) (s : String), (∃ c ∈ s.toList, Json.isGap c = false) →
      ∃ report, Declaration.ofJson (d.toJson ++ s) = .error report := by
  intro h
  obtain ⟨report, herror⟩ := h ⟨"U", []⟩ (⟨"V", []⟩ : Declaration).toJson
    ⟨'V', by decide +kernel, rfl⟩
  rw [ofJson_append] at herror
  nomatch herror

/-- **A model comes back from its text**, and so no two models have the same text. -/
theorem ofJson_toJson_and_injective (d : Declaration) :
    Declaration.ofJson d.toJson = .ok d ∧ ∀ e : Declaration, e.toJson = d.toJson ↔ e = d := by
  refine ⟨ofJson_toJson d, fun e => ⟨fun h => ?_, congrArg Declaration.toJson⟩⟩
  have hread := ofJson_toJson e
  rw [h, ofJson_toJson d] at hread
  exact (Except.ok.inj hread).symm

end DartUnion
