import DartUnion.Proofs.JsonFaults
import DartUnion.Proofs.JsonModel

/-!
# Where a wrong model is said to be wrong

The strings that a model has in any case are the name of the union, the type name and the label of
each variant, and the name and the type of each parameter (`Declaration.StringField`). Each has its
place in the text of the model, and the text around that place does not depend on the string. With a
number or a boolean there, the reader gets as far as that place, fails, and its report says the way
to it.

* `Slot`: a place for a string within the text that a reader takes.
* `Declaration.StringField.value?`, `put`, `path`: the string in a field, another string in its
  place, and the way to the field in words.

Results:
* `Slot.item`, `Slot.field`: a place in an item of a list, or in a field of a record, is one in the
  list or the record, one step further.
* `exists_slot_declaration`: each string of a union has its place.
* `ofJson_points_at_field`: **with a number or a boolean in the place of any one string the model is
  not read, and the report points at the field.**
-/

namespace DartUnion

namespace Json

variable {α β σ : Type} {path : List Step}

/-! ## The place of one string -/

/-- The text around a value that stands within a layout does not depend on the value. -/
def Framed (l : Layout → Layout) : Prop :=
  ∀ depth, ∃ before behind : List Char, ∀ v, l (fun _ => v) depth = before ++ (v ++ behind)

/-- A place for a string within what a reader takes: `l` is the layout of the whole with what stands
in that place. -/
structure Slot (r : Reader α) (l : Layout → Layout) (path : List Step) : Prop where
  /-- The text around the place is always the same. -/
  framed : Framed l
  /-- With a number or a boolean in the place the reader fails at the end of the path. -/
  fails : ∀ v, IsNumberOrBool v → ∀ {gap}, IsGap gap → ∀ depth,
    Fails r (gap ++ l (fun _ => v) depth) path

/-- A string is a place for itself. -/
theorem slot_text : Slot text id [] where
  framed := fun _ => ⟨[], [], fun v => (List.append_nil v).symm⟩
  fails := fun _ hv _ hg _ => fails_text hv hg

theorem Slot.bind {r : Reader α} {l : Layout → Layout} (h : Slot r l path) (f : α → Reader β) :
    Slot (r >>= f) l path where
  framed := h.framed
  fails := fun v hv _ hg depth => (h.fails v hv hg depth).bind f

theorem Slot.map {r : Reader α} {l : Layout → Layout} (h : Slot r l path) (f : α → β) :
    Slot (f <$> r) l path :=
  h.bind fun a => pure (f a)

/-- Around an item of a block stand the other items and the brackets. -/
theorem Framed.block {l : Layout → Layout} (h : Framed l) (opening closing : Char)
    (items others : List Layout) :
    Framed fun v => block opening closing (items ++ l v :: others) := by
  intro depth
  obtain ⟨before, behind, hl⟩ := h (depth + 1)
  refine ⟨opening :: (separated (newLine (depth + 1)) true
      (items.map fun item => item (depth + 1)) ++ (lead (true && (items.map fun item =>
        item (depth + 1)).isEmpty) (newLine (depth + 1)) ++ before)),
    behind ++ (separated (newLine (depth + 1)) false (others.map fun item => item (depth + 1)) ++
      (newLine depth ++ [closing])), fun v => ?_⟩
  have hne : items ++ l (fun _ => v) :: others ≠ [] := by simp
  dsimp only
  rw [block_of_ne_nil opening closing hne, List.map_append, List.map_cons, separated_append, hl]
  simp only [List.append_assoc, List.cons_append]

/-- **A place in an item of a list is one in the list**, if the items in front of it are read. -/
theorem Slot.item {element : Reader α} {l : Layout → Layout}
    (h : Slot element l path) (hbrace : ∀ v depth, ∃ s, l v depth = '{' :: s) (xs : List α)
    (layout : α → Layout) (hread : ∀ x ∈ xs, ∀ depth, Reads element (layout x depth) x)
    (hopen : ∀ x ∈ xs, ∀ depth, ∃ s, layout x depth = '{' :: s) (others : List Layout) :
    Slot (list element) (fun v => ofList (xs.map layout ++ l v :: others))
      (.index xs.length :: path) where
  framed := h.framed.block '[' ']' (xs.map layout) others
  fails := by
    intro v hv gap hg depth
    obtain ⟨s, hs⟩ := hbrace (fun _ => v) (depth + 1)
    have hitem := h.fails v hv isGap_nil (depth + 1)
    rw [List.nil_append, hs] at hitem
    have hne : xs.map layout ++ l (fun _ => v) :: others ≠ [] := by simp
    have hlist := fails_list (isGap_newLine (depth + 1)) hg
      (fun x hx => hread x hx (depth + 1)) (fun x hx => hopen x hx (depth + 1)) hitem
      (others.map fun item => item (depth + 1))
    unfold ofList
    rw [block_of_ne_nil '[' ']' hne, List.map_append, List.map_cons, List.map_map, hs,
      ← List.cons_append, ← List.append_assoc]
    exact hlist.append _

/-- **A place in a field of a record is one in the record**, if the fields in front are read. -/
theorem Slot.field {t : RecordType σ} {r : σ} {f : Field σ} {l : Layout → Layout}
    (h : Slot (f.read r) l path) {name : String}
    (hfind : t.fields.find? (·.name == name) = some f) (hset : f.isSet r = false)
    {fields : List (String × Layout)}
    (hread : ∀ depth, ReadsFields t t.empty (fields.map fun g => (g.1, ' ' :: g.2 depth)) r)
    (others : List (String × Layout)) :
    Slot (record t) (fun v => ofFields (fields ++ (name, l v) :: others)) (.key name :: path) where
  framed := by
    have hfield : Framed fun v => fun depth => ofString name depth ++ [':', ' '] ++ l v depth := by
      intro depth
      obtain ⟨before, behind, hl⟩ := h.framed depth
      refine ⟨ofString name depth ++ [':', ' '] ++ before, behind, fun v => ?_⟩
      dsimp only
      rw [hl, List.append_assoc _ before]
    unfold ofFields
    simp only [List.map_append, List.map_cons]
    exact hfield.block '{' '}' _ _
  fails := by
    intro v hv gap hg depth
    have hfield := h.fails v hv isGap_space (depth + 1)
    have hrecord := fails_record (isGap_newLine (depth + 1)) hg (hread (depth + 1)) hfind hset
      hfield ((others.map fun g => (g.1, ' ' :: g.2 (depth + 1))).map fieldText)
    have hne : (fields ++ (name, l fun _ => v) :: others).map (fun f => fun depth =>
        ofString f.1 depth ++ [':', ' '] ++ f.2 depth) ≠ [] := by simp
    unfold ofFields
    rw [block_of_ne_nil '{' '}' hne, map_fieldText, List.map_append, List.map_append, List.map_cons,
      List.map_cons, ← List.cons_append, ← List.append_assoc]
    exact hrecord.append _

end Json

/-! ## The strings of a model -/

/-- A string that every parameter has. -/
inductive Parameter.StringField where
  | name
  | typeExpression
  deriving Repr, DecidableEq

/-- A string that a variant has, or one of its parameters. -/
inductive Variant.StringField where
  | typeName
  | label
  | parameter (j : Nat) (f : Parameter.StringField)
  deriving Repr, DecidableEq

/-- A string that a union has, or one of its variants. -/
inductive Declaration.StringField where
  | name
  | variant (i : Nat) (f : Variant.StringField)
  deriving Repr, DecidableEq

namespace Parameter.StringField

/-- The string in the field. -/
def value : StringField → Parameter → String
  | .name, p => p.name
  | .typeExpression, p => p.typeExpression

/-- The parameter with another string in the field. -/
def put (s : String) : StringField → Parameter → Parameter
  | .name, p => { p with name := s }
  | .typeExpression, p => { p with typeExpression := s }

/-- The way from a parameter to the field. -/
def path : StringField → String
  | .name => "name"
  | .typeExpression => "type_expression"

end Parameter.StringField

namespace Variant.StringField

/-- The string in the field, if there is such a parameter. -/
def value? : StringField → Variant → Option String
  | .typeName, v => some v.typeName
  | .label, v => some v.label
  | .parameter j f, v => v.parameters[j]?.map f.value

/-- The variant with another string in the field. -/
def put (s : String) : StringField → Variant → Variant
  | .typeName, v => { v with typeName := s }
  | .label, v => { v with label := s }
  | .parameter j f, v => { v with parameters := v.parameters.modify j (f.put s) }

/-- The way from a variant to the field. -/
def path : StringField → String
  | .typeName => "type_name"
  | .label => "factory_label"
  | .parameter j f => "parameters[" ++ toString j ++ "]." ++ f.path

end Variant.StringField

namespace Declaration.StringField

/-- The string in the field, if there is such a variant or parameter. -/
def value? : StringField → Declaration → Option String
  | .name, d => some d.name
  | .variant i f, d => d.variants[i]?.bind f.value?

/-- The union with another string in the field. -/
def put (s : String) : StringField → Declaration → Declaration
  | .name, d => { d with name := s }
  | .variant i f, d => { d with variants := d.variants.modify i (f.put s) }

/-- The way from a union to the field. -/
def path : StringField → String
  | .name => "name"
  | .variant i f => "variants[" ++ toString i ++ "]." ++ f.path

end Declaration.StringField

namespace Json

/-- The steps to a field of a parameter. -/
def parameterSteps (f : Parameter.StringField) : List Step := [.key f.path]

/-- The steps to a field of a variant or of one of its parameters. -/
def variantSteps : Variant.StringField → List Step
  | .parameter j f => .key "parameters" :: .index j :: parameterSteps f
  | f => [.key f.path]

/-- The steps to a field of a union or of one of its variants. -/
def declarationSteps : Declaration.StringField → List Step
  | .variant i f => .key "variants" :: .index i :: variantSteps f
  | f => [.key f.path]

/-- A list with one element changed. -/
theorem modify_of_getElem? {xs : List α} {i : Nat} {x : α} (h : xs[i]? = some x) :
    ∃ front back, front.length = i ∧ xs = front ++ x :: back ∧
      ∀ g : α → α, xs.modify i g = front ++ g x :: back := by
  obtain ⟨hi, rfl⟩ := List.getElem?_eq_some_iff.1 h
  refine ⟨xs.take i, xs.drop (i + 1), List.length_take_of_le (Nat.le_of_lt hi), ?_, fun g => ?_⟩
  · rw [List.getElem_cons_drop, List.take_append_drop]
  · exact List.modify_eq_take_cons_drop hi

/-- Each string of a parameter has its place in the parameter's text. -/
theorem exists_slot_parameter (f : Parameter.StringField) (p : Parameter) :
    ∃ l, Slot parameter l (parameterSteps f) ∧ (∀ v depth, ∃ s, l v depth = '{' :: s) ∧
      ∀ s, ofParameter (f.put s p) = l (ofString s) := by
  let others : List (String × Layout) :=
    (p.defaultValue.toList.map fun d => ("default_value", ofString d)) ++
      [("kind", ofString (kindName p.kind))]
  cases f with
  | name =>
    refine ⟨fun v => ofFields ([] ++ ("name", v) ::
      ("type_expression", ofString p.typeExpression) :: others), ?_,
      fun v depth => ofFields_eq_cons _ depth, fun s => rfl⟩
    exact ((slot_text.bind _).field rfl rfl (fun _ => .nil _) _).map PartialParameter.complete
  | typeExpression =>
    have hname := fun depth => reads_text p.name depth isGap_space
    refine ⟨fun v => ofFields ([("name", ofString p.name)] ++ ("type_expression", v) :: others), ?_,
      fun v depth => ofFields_eq_cons _ depth, fun s => rfl⟩
    have hread : ∀ depth, ReadsFields parameterType {}
        ([("name", ofString p.name)].map fun g => (g.1, ' ' :: g.2 depth))
        { name := some p.name } :=
      fun depth => .cons rfl rfl ((hname depth).bind_pure _) (.nil _)
    exact ((slot_text.bind _).field rfl rfl hread _).map PartialParameter.complete

/-- Each string of a variant has its place in the variant's text. -/
theorem exists_slot_variant {f : Variant.StringField} {v : Variant} (h : f.value? v ≠ none) :
    ∃ l, Slot variant l (variantSteps f) ∧ (∀ w depth, ∃ s, l w depth = '{' :: s) ∧
      ∀ s, ofVariant (f.put s v) = l (ofString s) := by
  have htype := fun depth => reads_text v.typeName depth isGap_space
  have hlabel := fun depth => reads_text v.label depth isGap_space
  have hlabelled : ∀ depth, ReadsFields variantType {}
      ([("type_name", ofString v.typeName), ("factory_label", ofString v.label)].map fun g =>
        (g.1, ' ' :: g.2 depth)) { typeName := some v.typeName, label := some v.label } :=
    fun depth => .cons rfl rfl ((htype depth).bind_pure _)
      (.cons rfl rfl ((hlabel depth).bind_pure _) (.nil _))
  cases f with
  | typeName =>
    refine ⟨fun w => ofFields ([] ++ ("type_name", w) :: [("factory_label", ofString v.label),
      ("parameters", ofList (v.parameters.map ofParameter))]), ?_,
      fun w depth => ofFields_eq_cons _ depth, fun s => rfl⟩
    exact ((slot_text.bind _).field rfl rfl (fun _ => .nil _) _).map PartialVariant.complete
  | label =>
    refine ⟨fun w => ofFields ([("type_name", ofString v.typeName)] ++ ("factory_label", w) ::
      [("parameters", ofList (v.parameters.map ofParameter))]), ?_,
      fun w depth => ofFields_eq_cons _ depth, fun s => rfl⟩
    have hread : ∀ depth, ReadsFields variantType {}
        ([("type_name", ofString v.typeName)].map fun g => (g.1, ' ' :: g.2 depth))
        { typeName := some v.typeName } :=
      fun depth => .cons rfl rfl ((htype depth).bind_pure _) (.nil _)
    exact ((slot_text.bind _).field rfl rfl hread _).map PartialVariant.complete
  | parameter j f =>
    obtain ⟨p, hp⟩ : ∃ p, v.parameters[j]? = some p := by
      cases hp : v.parameters[j]? with
      | none => exact absurd (by rw [Variant.StringField.value?, hp]; rfl) h
      | some p => exact ⟨p, rfl⟩
    obtain ⟨front, back, rfl, hfront, hmodify⟩ := modify_of_getElem? hp
    obtain ⟨l, hslot, hbrace, hput⟩ := exists_slot_parameter f p
    have hitem := hslot.item hbrace front ofParameter
      (fun q _ depth => reads_parameter q depth isGap_nil)
      (fun q _ depth => ofFields_eq_cons _ depth) (back.map ofParameter)
    refine ⟨fun w => ofFields ([("type_name", ofString v.typeName),
      ("factory_label", ofString v.label)] ++ ("parameters",
        ofList (front.map ofParameter ++ l w :: back.map ofParameter)) :: []), ?_,
      fun w depth => ofFields_eq_cons _ depth, fun s => ?_⟩
    · exact ((hitem.bind _).field rfl rfl hlabelled []).map PartialVariant.complete
    · rw [Variant.StringField.put, hmodify, ofVariant]
      dsimp only
      rw [List.map_append, List.map_cons, hput]
      rfl

/-- Each string of a union has its place in the union's text. -/
theorem exists_slot_declaration {f : Declaration.StringField} {d : Declaration}
    (h : f.value? d ≠ none) :
    ∃ l, Slot declaration l (declarationSteps f) ∧
      ∀ s, ofDeclaration (f.put s d) = l (ofString s) := by
  have hname := fun depth => reads_text d.name depth isGap_space
  cases f with
  | name =>
    refine ⟨fun w => ofFields ([] ++ ("name", w) ::
      [("variants", ofList (d.variants.map ofVariant))]), ?_, fun s => rfl⟩
    exact ((slot_text.bind _).field rfl rfl (fun _ => .nil _) _).map PartialDeclaration.complete
  | variant i f =>
    obtain ⟨v, hv, hf⟩ : ∃ v, d.variants[i]? = some v ∧ f.value? v ≠ none := by
      cases hv : d.variants[i]? with
      | none => exact absurd (by rw [Declaration.StringField.value?, hv]; rfl) h
      | some v =>
        rw [Declaration.StringField.value?, hv] at h
        exact ⟨v, rfl, h⟩
    obtain ⟨front, back, rfl, hfront, hmodify⟩ := modify_of_getElem? hv
    obtain ⟨l, hslot, hbrace, hput⟩ := exists_slot_variant hf
    have hitem := hslot.item hbrace front ofVariant
      (fun q _ depth => reads_variant q depth isGap_nil) (fun q _ depth => ofFields_eq_cons _ depth)
      (back.map ofVariant)
    have hread : ∀ depth, ReadsFields declarationType {}
        ([("name", ofString d.name)].map fun g => (g.1, ' ' :: g.2 depth))
        { name := some d.name } :=
      fun depth => .cons rfl rfl ((hname depth).bind_pure _) (.nil _)
    refine ⟨fun w => ofFields ([("name", ofString d.name)] ++ ("variants",
        ofList (front.map ofVariant ++ l w :: back.map ofVariant)) :: []), ?_, fun s => ?_⟩
    · exact ((hitem.bind _).field rfl rfl hread []).map PartialDeclaration.complete
    · rw [Declaration.StringField.put, hmodify, ofDeclaration]
      dsimp only
      rw [List.map_append, List.map_cons, hput]
      rfl

/-! ## Paths in words -/

theorem go_parameterSteps (f : Parameter.StringField) :
    pathWords.go false (parameterSteps f) = "." ++ f.path := by
  cases f <;> rfl

theorem go_variantSteps (f : Variant.StringField) :
    pathWords.go false (variantSteps f) = "." ++ f.path := by
  cases f with
  | typeName => rfl
  | label => rfl
  | parameter j f =>
    show "." ++ "parameters" ++ ("[" ++ toString j ++ "]" ++
        pathWords.go false (parameterSteps f)) =
      "." ++ ("parameters" ++ "[" ++ toString j ++ ("]" ++ ".") ++ f.path)
    rw [go_parameterSteps]
    simp only [String.append_assoc]

/-- The steps to a field are worded as its path. -/
theorem pathWords_declarationSteps (f : Declaration.StringField) :
    pathWords (declarationSteps f) = f.path := by
  cases f with
  | name => rfl
  | variant i f =>
    show "" ++ "variants" ++ ("[" ++ toString i ++ "]" ++ pathWords.go false (variantSteps f)) =
      "variants" ++ "[" ++ toString i ++ ("]" ++ ".") ++ f.path
    rw [go_variantSteps, String.empty_append]
    simp only [String.append_assoc]

end Json

/-! ## Strings put in their own place -/

theorem modify_eq_self {α : Type} {xs : List α} {i : Nat} {x : α} {g : α → α}
    (h : xs[i]? = some x) (hx : g x = x) : xs.modify i g = xs := by
  obtain ⟨front, back, -, hxs, hmodify⟩ := Json.modify_of_getElem? h
  rw [hmodify, hx, hxs]

theorem Parameter.StringField.put_value (f : StringField) (p : Parameter) :
    f.put (f.value p) p = p := by
  cases f <;> rfl

theorem Variant.StringField.put_value? {f : StringField} {v : Variant} {s : String}
    (h : f.value? v = some s) : f.put s v = v := by
  cases f with
  | typeName =>
    obtain rfl := Option.some.inj h
    rfl
  | label =>
    obtain rfl := Option.some.inj h
    rfl
  | parameter j f =>
    obtain ⟨p, hp, rfl⟩ := Option.map_eq_some_iff.1 h
    rw [put, modify_eq_self hp (f.put_value p)]

/-- A union is not changed by the string that it has in a field already. -/
theorem Declaration.StringField.put_value? {f : StringField} {d : Declaration} {s : String}
    (h : f.value? d = some s) : f.put s d = d := by
  cases f with
  | name =>
    obtain rfl := Option.some.inj h
    rfl
  | variant i f =>
    obtain ⟨v, hv, hs⟩ := Option.bind_eq_some_iff.1 h
    rw [put, modify_eq_self hv (Variant.StringField.put_value? hs)]

/-! ## The text of a model -/

/-- **With a number or a boolean in the place of one string a model is not read, and the report
points at the field.** The text of the model is that string with something in front of it and
something behind it; these two stay the same whatever string stands between them, so it is the place
of that field and no other. -/
theorem ofJson_points_at_field {d : Declaration} {f : Declaration.StringField} {s : String}
    (h : f.value? d = some s) :
    ∃ before behind : String, d.toJson = before ++ String.ofList (Json.ofString s 0) ++ behind ∧
      (∀ t, (f.put t d).toJson = before ++ String.ofList (Json.ofString t 0) ++ behind) ∧
      ∀ v : String, Json.IsNumberOrBool v.toList →
        ∃ report, Declaration.ofJson (before ++ v ++ behind) = .error report ∧
          report.path = f.path := by
  obtain ⟨l, hslot, hput⟩ := Json.exists_slot_declaration (h ▸ Option.some_ne_none s)
  obtain ⟨before, behind, hl⟩ := hslot.framed 0
  have htoJson : ∀ t, (f.put t d).toJson =
      String.ofList before ++ String.ofList (Json.ofString t 0) ++ String.ofList behind := by
    intro t
    rw [Declaration.toJson, hput, ← String.ofList_append, ← String.ofList_append, List.append_assoc]
    exact congrArg String.ofList (hl (Json.ofString t 0))
  refine ⟨String.ofList before, String.ofList behind, ?_, htoJson, fun v hv => ?_⟩
  · rw [← htoJson s, f.put_value? h]
  · have htext : (String.ofList before ++ v ++ String.ofList behind).toList =
        before ++ (v.toList ++ behind) := by
      simp only [String.toList_append, String.toList_ofList, List.append_assoc]
    obtain ⟨e, he, hpath⟩ := hslot.fails v.toList hv Json.isGap_nil 0 []
    rw [List.nil_append, List.append_nil, hl, ← htext] at he
    refine ⟨e.report (String.ofList before ++ v ++ String.ofList behind).toList, ?_, ?_⟩
    · rw [Declaration.ofJson, he]
    · rw [← Json.pathWords_declarationSteps, ← hpath]
      rfl

/-- A number that is too large for the reader, deep in a model. -/
theorem ofJson_points_at_field_nested :
    let d : Declaration := ⟨"Status \"x\"", [⟨"Idle", "idle", []⟩, ⟨"Done", "done",
      [⟨"at", "int", none, .positional⟩, ⟨"all", "List<int>", some "[]", .named⟩]⟩]⟩
    let f : Declaration.StringField := .variant 1 (.parameter 1 .typeExpression)
    f.value? d = some "List<int>" ∧ Json.IsNumberOrBool "-12.50e+400".toList ∧
      ∃ before behind : String, d.toJson = before ++ "\"List<int>\"" ++ behind ∧
        ∃ report, Declaration.ofJson (before ++ "-12.50e+400" ++ behind) = .error report ∧
          report.path = "variants[1].parameters[1].type_expression" := by
  intro d f
  have hvalue : f.value? d = some "List<int>" := rfl
  have hparts : Json.IsNumber
      (['-'] ++ (['1', '2'] ++ (['.', '5', '0'] ++ ['e', '+', '4', '0', '0']))) :=
    .intro (.inr rfl) (by decide) (by decide) (.inr ⟨['5', '0'], by decide, rfl⟩)
      (.inr ⟨'e', ['+'], ['4', '0', '0'], .inl rfl, .inr (.inl rfl), by decide, rfl⟩)
  have hnumber : Json.IsNumberOrBool "-12.50e+400".toList := .inl hparts
  obtain ⟨before, behind, hd, -, hfail⟩ := ofJson_points_at_field hvalue
  exact ⟨hvalue, hnumber, before, behind, hd, hfail "-12.50e+400" hnumber⟩

end DartUnion
