import DartUnion.Output.Case

/-!
# Dispatch helpers

The helpers take one handler per case and call the one that fits the value. They differ in three
ways only: what a handler receives, what happens when a handler is missing, and whether the answer
comes later. A `Family` is a choice of the three; the generated extension has eight of them.

| handler receives | none may be missing | `orElse` steps in | the answer is null |
|------------------|---------------------|-------------------|--------------------|
| the fields       | `when`              | `maybeWhen`       | `whenOrNull`       |
| the case         | `map`               | `maybeMap`        |                    |

The first row exists a second time with `Async` behind the name. A helper is first made as data, a
`Method` with its handlers and its arms; its lines come from that. `Method.lines` of `Family.method` is
`Family::render`.

* `Family.name` is `method_name`, `Family.returns` is `return_type`. `HandlerType.ofFields` is
  `handler_type` and `HandlerType.ofCase` is `case_handler_type`; a `Handler` is what `handler_param`
  writes.
* `Family.arm` is `arm`: the pattern is `case_pattern` or `binding_pattern`, the arguments of its
  `Dispatch` are `call_args` or the bound case.
* `bindingName` is `binding_name`, whose loop ends after at most as many rounds as there are labels.
-/

namespace DartUnion.Output

/-- What a handler receives. -/
inductive Receives where
  | fields
  | case
  deriving Repr, DecidableEq

/-- What happens for a case without a handler. -/
inductive Absence where
  | impossible
  | orElse
  | null
  deriving Repr, DecidableEq

/-- A family of helpers. -/
structure Family where
  receives : Receives
  absence : Absence
  async : Bool
  deriving Repr, DecidableEq

/-- The name of the helper. -/
def Family.name (f : Family) : String :=
  let stem := match f.receives with
    | .fields => "when"
    | .case => "map"
  let capital := match f.receives with
    | .fields => "When"
    | .case => "Map"
  let choice := match f.absence with
    | .impossible => stem
    | .orElse => "maybe" ++ capital
    | .null => stem ++ "OrNull"
  choice ++ if f.async then "Async" else ""

/-- The families of the generated extension, in order. -/
def Family.all : List Family :=
  [⟨.fields, .impossible, false⟩, ⟨.fields, .orElse, false⟩, ⟨.fields, .null, false⟩,
    ⟨.fields, .impossible, true⟩, ⟨.fields, .orElse, true⟩, ⟨.fields, .null, true⟩,
    ⟨.case, .impossible, false⟩, ⟨.case, .orElse, false⟩]

/-! ## Handlers -/

/-- The type of a handler: what it takes and whether it answers later. -/
structure HandlerType where
  takes : List String
  async : Bool
  deriving Repr, DecidableEq

/-- The type of an answer. -/
def answerType (async : Bool) : String := if async then "Future<Result>" else "Result"

/-- A handler type as code. -/
def HandlerType.text (t : HandlerType) : String :=
  answerType t.async ++ " Function(" ++ commas t.takes ++ ")"

/-- A handler that takes the fields of a case. -/
def HandlerType.ofFields (v : Variant) (async : Bool) : HandlerType :=
  ⟨v.parameters.map typed, async⟩

/-- A handler that takes the case itself. -/
def HandlerType.ofCase (v : Variant) (binding : String) (async : Bool) : HandlerType :=
  ⟨[v.typeName ++ " " ++ binding], async⟩

/-- One handler of a helper. -/
structure Handler where
  label : String
  type : HandlerType
  required : Bool
  deriving Repr, DecidableEq

/-- A handler as a named parameter; one that may be missing has a nullable type. -/
def Handler.text (h : Handler) : String :=
  (if h.required then "required " ++ h.type.text else h.type.text ++ "?") ++ " " ++ h.label ++ ","

/-! ## Calls -/

/-- What an arm does: call the handler of its case, or what stands in for it. -/
structure Dispatch where
  label : String
  arguments : List String
  absence : Absence
  async : Bool
  deriving Repr, DecidableEq

/-- A dispatch as code. -/
def Dispatch.text (d : Dispatch) : String :=
  let wait := if d.async then "await " else ""
  let arguments := "(" ++ commas d.arguments ++ ")"
  match d.absence with
  | .impossible => wait ++ d.label ++ arguments
  | .orElse => d.label ++ " != null ? " ++ wait ++ d.label ++ arguments ++ " : " ++ wait ++ "orElse()"
  | .null => wait ++ d.label ++ "?.call" ++ arguments

/-! ## Methods -/

/-- A helper as data. -/
structure Method where
  name : String
  returns : String
  /-- The answer that `orElse` gives, where it is asked for. -/
  orElse : Option String
  handlers : List Handler
  async : Bool
  arms : List (Pattern × Dispatch)
  deriving Repr, DecidableEq

/-- The type that the helper returns. -/
def Family.returns (f : Family) : String :=
  let answer := if f.absence = .null then "Result?" else "Result"
  if f.async then "Future<" ++ answer ++ ">" else answer

/-- The handler of a case. -/
def Family.handler (f : Family) (binding : String) (v : Variant) : Handler where
  label := v.label
  type := match f.receives with
    | .fields => .ofFields v f.async
    | .case => .ofCase v binding f.async
  required := f.absence == .impossible

/-- The arm of a case. -/
def Family.arm (f : Family) (binding : String) (v : Variant) : Pattern × Dispatch :=
  match f.receives with
  | .fields =>
    (.ofVariant v binding, ⟨v.label, v.parameters.map (field binding), f.absence, f.async⟩)
  | .case => (.bind v.typeName binding, ⟨v.label, [binding], f.absence, f.async⟩)

/-- The helper of a family over the cases of a union. -/
def Family.method (f : Family) (vs : List Variant) (binding : String) : Method where
  name := f.name
  returns := f.returns
  orElse := if f.absence = .orElse then some (answerType f.async) else none
  handlers := vs.map (f.handler binding)
  async := f.async
  arms := vs.map (f.arm binding)

/-- The lines of a helper, from the depth of the method on. -/
def Method.lines (m : Method) : List Line :=
  [⟨0, m.returns ++ " " ++ m.name ++ "<Result extends Object?>(\x7b"⟩] ++
  (m.orElse.toList.map fun t => ⟨1, "required " ++ t ++ " Function() orElse,"⟩) ++
  (m.handlers.map fun h => ⟨1, h.text⟩) ++
  [⟨0, if m.async then "\x7d) async \x7b" else "\x7d) \x7b"⟩, ⟨1, "return switch (this) \x7b"⟩] ++
  (m.arms.map fun a => ⟨2, (Arm.mk a.1 a.2.text).text⟩) ++
  [⟨1, "\x7d;"⟩, ⟨0, "\x7d"⟩]

/-! ## The bound name -/

/-- The first of `name`, `name_`, `name__`, … that is no label, with at most `spare` underscores. -/
def freeName (labels : List String) (name : String) : (spare : Nat) → String
  | 0 => name
  | spare + 1 => if name ∈ labels then freeName labels (name ++ "_") spare else name

/-- The name that the helpers bind a case to. Handlers share its scope, so it steps around labels;
there are no more underscores than labels. -/
def bindingName (d : Declaration) : String :=
  freeName (d.variants.map Variant.label) "value" d.variants.length

end DartUnion.Output
