/-!
# Unions as data

A union is a class whose redirecting factories are its cases:

    class Status {
      factory Status.loading() = Loading;
      factory Status.error(String message) = Failure;
    }

A `Declaration` (`UnionDeclaration`) holds the name of the class and one `Variant` per factory, in the
order of the source: the type that the factory redirects to, the label behind the dot, and the
parameters. Types and defaults of parameters are kept as they are written and never looked into.

A parameter's kind (`ParamKind`) says in which of the three groups of a Dart parameter list it stands
(`ParamKind.group`), and for the named ones whether the caller has to give it.
-/

namespace DartUnion

/-- The groups of a parameter list, in the order in which Dart wants them: plain, `[...]`, `{...}`. -/
inductive Group where
  | positional
  | optional
  | named
  deriving Repr, DecidableEq, Inhabited

/-- How an argument is passed: by place, by place if at all, by name, or by name without fail. -/
inductive ParamKind where
  | positional
  | optionalPositional
  | named
  | requiredNamed
  deriving Repr, DecidableEq, Inhabited

/-- The group in which parameters of a kind stand. -/
def ParamKind.group : ParamKind → Group
  | .positional => .positional
  | .optionalPositional => .optional
  | .named | .requiredNamed => .named

/-- The kind of a parameter in a group; `required` only means something in the named group. -/
def ParamKind.ofGroup (required : Bool) : Group → ParamKind
  | .positional => .positional
  | .optional => .optionalPositional
  | .named => if required then .requiredNamed else .named

/-- Every kind comes from its group and from being required or not. -/
theorem ParamKind.ofGroup_group (k : ParamKind) : ofGroup (k == .requiredNamed) k.group = k := by
  cases k <;> rfl

/-- A parameter of a factory. -/
structure Parameter where
  name : String
  typeExpression : String
  defaultValue : Option String := none
  kind : ParamKind := .positional
  deriving Repr, DecidableEq, Inhabited

/-- One case of a union. -/
structure Variant where
  typeName : String
  label : String
  parameters : List Parameter := []
  deriving Repr, DecidableEq, Inhabited

/-- A case without parameters, of which there is only one value. -/
def Variant.isUnit (v : Variant) : Bool := v.parameters.isEmpty

/-- A union: its name and its cases in the order of the source. -/
structure Declaration where
  name : String
  variants : List Variant
  deriving Repr, DecidableEq, Inhabited

/-- The cases without parameters, in order. -/
def Declaration.unitVariants (d : Declaration) : List Variant := d.variants.filter Variant.isUnit

end DartUnion
