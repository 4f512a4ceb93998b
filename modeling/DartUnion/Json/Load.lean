import DartUnion.Declaration.Basic
import DartUnion.Json.Record

/-!
# Unions from JSON text

`model_from_json` reads a union. It is `from_str_with_path` at the type of declarations: one value is
read from the front of the text, and nothing behind it is looked at.

A union is a record of its name and its variants, a variant one of its type name, its label and its
parameters, a parameter one of its name, its type, perhaps its default and perhaps its kind. Without
a kind a parameter is positional. The three records are `declarationType`, `variantType` and
`parameterType`.

* `Declaration.ofJson` is `model_from_json`: the union of a text, or the `PathError`.
-/

namespace DartUnion

namespace Json

/-- The kinds of parameters by name. -/
def kindNames : List (String × ParamKind) :=
  [("positional", .positional), ("optional_positional", .optionalPositional), ("named", .named),
    ("required_named", .requiredNamed)]

/-- The kind of a name that was just read. -/
def kindOf (name : String) : Reader ParamKind :=
  match kindNames.lookup name with
  | some k => return k
  | none => fail (.unknownVariant name (kindNames.map Prod.fst))

/-- The `null` that may stand behind the name of a kind. -/
def nothing : Reader Unit := do
  match ← nextToken with
  | none => failAhead .endInValue
  | some 'n' => advance; exactly ['u', 'l', 'l']
  | some _ => unexpected "unit"

/-- A kind: its name, or an object with its name as the only key. -/
def kind : Reader ParamKind := do
  match ← nextToken with
  | none => failAhead .endInValue
  | some '"' => do
    advance
    kindOf (← string)
  | some '{' =>
    advance
    match ← nextToken with
    | none => failAhead .endInValue
    | some '"' =>
      advance
      let name ← string
      let k ← kindOf name
      colon
      under (.key name) nothing
      match ← nextToken with
      | none => fail .endInObject
      | some '}' => advance; return k
      | some _ => fail .expectedValue
    | some '}' => failAhead .expectedValue
    | some _ => failAhead .keyNotString
  | some _ => failAhead .expectedValue

/-! ## The records of a model -/

/-- A parameter of which fields may be missing. -/
structure PartialParameter where
  name : Option String := none
  typeExpression : Option String := none
  defaultValue : Option (Option String) := none
  kind : Option ParamKind := none

/-- The record of a parameter. -/
def parameterType : RecordType PartialParameter where
  name := "Parameter"
  empty := {}
  fields := [
    { name := "name"
      isSet := (·.name.isSome)
      read := fun p => do return { p with name := some (← text) } },
    { name := "type_expression"
      isSet := (·.typeExpression.isSome)
      read := fun p => do return { p with typeExpression := some (← text) } },
    { name := "default_value"
      optional := true
      isSet := (·.defaultValue.isSome)
      read := fun p => do return { p with defaultValue := some (← optionalText) } },
    { name := "kind"
      optional := true
      isSet := (·.kind.isSome)
      read := fun p => do return { p with kind := some (← kind) } }]

/-- The parameter that was read. -/
def PartialParameter.complete (p : PartialParameter) : Parameter where
  name := p.name.getD ""
  typeExpression := p.typeExpression.getD ""
  defaultValue := p.defaultValue.getD none
  kind := p.kind.getD .positional

/-- A parameter. -/
def parameter : Reader Parameter := PartialParameter.complete <$> record parameterType

/-- A variant of which fields may be missing. -/
structure PartialVariant where
  typeName : Option String := none
  label : Option String := none
  parameters : Option (List Parameter) := none

/-- The record of a variant. -/
def variantType : RecordType PartialVariant where
  name := "Variant"
  empty := {}
  fields := [
    { name := "type_name"
      isSet := (·.typeName.isSome)
      read := fun v => do return { v with typeName := some (← text) } },
    { name := "factory_label"
      isSet := (·.label.isSome)
      read := fun v => do return { v with label := some (← text) } },
    { name := "parameters"
      isSet := (·.parameters.isSome)
      read := fun v => do return { v with parameters := some (← list parameter) } }]

/-- The variant that was read. -/
def PartialVariant.complete (v : PartialVariant) : Variant where
  typeName := v.typeName.getD ""
  label := v.label.getD ""
  parameters := v.parameters.getD []

/-- A variant. -/
def variant : Reader Variant := PartialVariant.complete <$> record variantType

/-- A union of which fields may be missing. -/
structure PartialDeclaration where
  name : Option String := none
  variants : Option (List Variant) := none

/-- The record of a union. -/
def declarationType : RecordType PartialDeclaration where
  name := "UnionDeclaration"
  empty := {}
  fields := [
    { name := "name"
      isSet := (·.name.isSome)
      read := fun d => do return { d with name := some (← text) } },
    { name := "variants"
      isSet := (·.variants.isSome)
      read := fun d => do return { d with variants := some (← list variant) } }]

/-- The union that was read. -/
def PartialDeclaration.complete (d : PartialDeclaration) : Declaration where
  name := d.name.getD ""
  variants := d.variants.getD []

/-- A union. -/
def declaration : Reader Declaration := PartialDeclaration.complete <$> record declarationType

end Json

/-- The union that a JSON text holds: `model_from_json`. -/
def Declaration.ofJson (json : String) : Except Json.Report Declaration :=
  match Json.declaration json.toList with
  | .ok (d, _) => .ok d
  | .error f => .error (f.report json.toList)

end DartUnion
