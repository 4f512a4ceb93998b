import DartUnion.Declaration.Basic

/-!
# Unions as JSON text

Models are written by `to_string_pretty`: with two spaces per level, each element and each field on a
line of its own, fields in the order of the types, an absent default left out, and an empty list as
`[]`. Quotes, backslashes and controls are escaped; every other character stands for itself.

A value as text depends on how deep it stands: a `Layout` is its text at each depth.

* `ofParameter`, `ofVariant`, `ofDeclaration` are the records `Parameter`, `Variant` and
  `UnionDeclaration` with their field names.
* `Declaration.toJson` and `Declaration.listToJson` are `to_string_pretty` of a union and of several.
-/

namespace DartUnion

namespace Json

/-- The four hexadecimal digits of a control. -/
def controlDigits (n : Nat) : List Char :=
  ['0', '0', Nat.digitChar (n / 16), Nat.digitChar (n % 16)]

/-- A character within a string. -/
def stringChar (c : Char) : List Char :=
  if c = '"' then ['\\', '"']
  else if c = '\\' then ['\\', '\\']
  else if c = '\x08' then ['\\', 'b']
  else if c = '\t' then ['\\', 't']
  else if c = '\n' then ['\\', 'n']
  else if c = '\x0c' then ['\\', 'f']
  else if c = '\r' then ['\\', 'r']
  else if c.toNat < 0x20 then '\\' :: 'u' :: controlDigits c.toNat
  else [c]

/-- A value as text at each depth. -/
abbrev Layout := Nat → List Char

/-- A string. -/
def ofString (s : String) : Layout := fun _ => '"' :: (s.toList.flatMap stringChar ++ ['"'])

/-- The start of a line at a depth. -/
def newLine (depth : Nat) : List Char := '\n' :: List.replicate (2 * depth) ' '

/-- Items one level deeper, one per line, between two brackets. -/
def block (opening closing : Char) (items : List Layout) : Layout := fun depth =>
  if items.isEmpty then [opening, closing]
  else
    opening ::
      ([','].intercalate (items.map fun item => newLine (depth + 1) ++ item (depth + 1)) ++
        newLine depth ++ [closing])

/-- A list. -/
def ofList (items : List Layout) : Layout := block '[' ']' items

/-- A record. -/
def ofFields (fields : List (String × Layout)) : Layout :=
  block '{' '}' <| fields.map fun f => fun depth => ofString f.1 depth ++ [':', ' '] ++ f.2 depth

/-- The name of a kind. -/
def kindName : ParamKind → String
  | .positional => "positional"
  | .optionalPositional => "optional_positional"
  | .named => "named"
  | .requiredNamed => "required_named"

/-- A parameter. -/
def ofParameter (p : Parameter) : Layout :=
  ofFields <|
    [("name", ofString p.name), ("type_expression", ofString p.typeExpression)] ++
    (p.defaultValue.toList.map fun d => ("default_value", ofString d)) ++
    [("kind", ofString (kindName p.kind))]

/-- A variant. -/
def ofVariant (v : Variant) : Layout :=
  ofFields [("type_name", ofString v.typeName), ("factory_label", ofString v.label),
    ("parameters", ofList (v.parameters.map ofParameter))]

/-- A union. -/
def ofDeclaration (d : Declaration) : Layout :=
  ofFields [("name", ofString d.name), ("variants", ofList (d.variants.map ofVariant))]

end Json

/-- A union as JSON text. -/
def Declaration.toJson (d : Declaration) : String := String.ofList (Json.ofDeclaration d 0)

/-- Several unions as one JSON list. -/
def Declaration.listToJson (ds : List Declaration) : String :=
  String.ofList (Json.ofList (ds.map Json.ofDeclaration) 0)

end DartUnion
