import DartUnion.Output.Basic

/-!
# What each case contributes

A case gives the union a redirecting factory (`redirect`, `factory_redirect`), an arm of the look-up by
label when it is a unit case (`lookUpArm?`, `from_string_arm`, whose body is `construct_expr`), an arm
of the text form (`textArm`, `to_string_arm`), and a class of its own (`classLines`,
`class_definition`).

Dart wants plain parameters first, then `[...]`, then `{...}`, so `declare_params` regroups a parameter
list in this order and keeps the order of the parameters within each group (`parameterList`). A
redirecting factory must not state defaults; the constructor of the case's class does.

* `filterMap_lookUpArm?`: the look-up has an arm for each unit case and no other.
-/

namespace DartUnion.Output

open DartUnion.Dart

/-- Things separated by commas. -/
def commas (items : List String) : String := ", ".intercalate items

/-- The parameters that stand in a group, in order. -/
def inGroup (g : Group) (ps : List Parameter) : List Parameter := ps.filter (·.kind.group == g)

/-- A group between its brackets, and nothing for a group without members. -/
def bracketed (opening closing : String) (items : List String) : List String :=
  if items.isEmpty then [] else [opening ++ commas items ++ closing]

/-- A parameter as its group states it: a named one that is required says so. -/
def stated (shown : Parameter → String) (p : Parameter) : String :=
  if p.kind = .requiredNamed then "required " ++ shown p else shown p

/-- A parameter list with every parameter shown by `shown`, regrouped: `declare_params`. -/
def parameterList (shown : Parameter → String) (ps : List Parameter) : String :=
  commas <|
    (inGroup .positional ps).map shown ++
    bracketed "[" "]" ((inGroup .optional ps).map shown) ++
    bracketed "\x7b" "\x7d" ((inGroup .named ps).map (stated shown))

/-- A parameter as in `String message`. -/
def typed (p : Parameter) : String := p.typeExpression ++ " " ++ p.name

/-- A parameter that initialises its field, with its default if it has one. -/
def initialising (p : Parameter) : String :=
  match p.defaultValue with
  | some d => "this." ++ p.name ++ " = " ++ d
  | none => "this." ++ p.name

/-- The factory of the union that redirects to the case: `factory_redirect`. -/
def redirect (union : String) (v : Variant) : String :=
  "const factory " ++ union ++ "." ++ v.label ++ "(" ++ parameterList typed v.parameters ++ ") = " ++
    v.typeName ++ ";"

/-- The call of the case's factory without arguments: `construct_expr`. -/
def construction (union : String) (v : Variant) : String :=
  (if v.isUnit then "const " else "") ++ union ++ "." ++ v.label ++ "()"

/-- The arm that finds a unit case by its label: `from_string_arm`. -/
def lookUpArm? (union : String) (v : Variant) : Option Arm :=
  if v.isUnit then some ⟨.literal v.label, construction union v⟩ else none

/-- The arms of the look-up are those of the unit cases, in order. -/
theorem filterMap_lookUpArm? (union : String) (vs : List Variant) :
    vs.filterMap (lookUpArm? union) =
      (vs.filter Variant.isUnit).map fun v => ⟨.literal v.label, construction union v⟩ := by
  induction vs with
  | nil => rfl
  | cons v vs ih =>
    by_cases hv : v.isUnit = true
    · rw [List.filter_cons_of_pos hv, List.map_cons, ← ih,
        List.filterMap_cons_some (by rw [lookUpArm?, if_pos hv])]
    · rw [List.filter_cons_of_neg hv, ← ih,
        List.filterMap_cons_none (by rw [lookUpArm?, if_neg hv])]

/-- A field of the bound case. -/
def field (binding : String) (p : Parameter) : String := binding ++ "." ++ p.name

/-- The fields of the bound case, separated by commas: `call_args`. -/
def fields (binding : String) (v : Variant) : String := commas (v.parameters.map (field binding))

/-- An expression within a string literal. -/
def interpolated (expression : String) : String := "$\x7b" ++ expression ++ "\x7d"

/-- The arm that shows a case with its fields: `to_string_arm`. -/
def textArm (binding : String) (v : Variant) : Arm where
  pattern := .ofVariant v binding
  body :=
    "'" ++ escape v.typeName ++ "(" ++
      commas (v.parameters.map fun p => interpolated (field binding p)) ++ ")'"

/-- The class of the case: `class_definition`. -/
def classLines (union : String) (v : Variant) : List Line :=
  let members :=
    if v.isUnit then [⟨1, "const " ++ v.typeName ++ "();"⟩]
    else
      v.parameters.map (fun p => ⟨1, "final " ++ typed p ++ ";"⟩) ++
      [.blank, ⟨1, "const " ++ v.typeName ++ "(" ++ parameterList initialising v.parameters ++ ");"⟩]
  [⟨0, "final class " ++ v.typeName ++ " extends " ++ union ++ " \x7b"⟩] ++ members ++
  [.blank,
    ⟨1, "@override"⟩,
    ⟨1, "List<Object?> get props => [" ++ commas (v.parameters.map Parameter.name) ++ "];"⟩,
    ⟨0, "\x7d"⟩]

end DartUnion.Output
