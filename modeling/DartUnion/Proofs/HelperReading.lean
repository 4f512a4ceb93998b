import DartUnion.Proofs.ArmReading
import DartUnion.Proofs.CoveredCases

/-!
# Helpers, read off their lines

A helper says the same thing twice. Its signature declares a handler for each case, and the body calls
that handler: what the one declares as required or as nullable the other calls as it is or with a guard,
and what the one takes the other passes. Signature and body are made apart from each other, so both are
read here, and what was read is compared.

The reader is told the name of the helper, the types and the labels of the cases in order, and the name
that a case may be bound to. It is told nothing of the family and of the parameters, and asks nothing of
the names: they may be any text. A text that does not start with the label of its case starts with
`await` or is no call, and the marks behind a label tell the three kinds of calls apart.

* `ReadHandler`, `ReadArm`, `ReadHelper`: what a handler, an arm and a helper say.
* `readHandler?`, `readArm?`, `readHelper?`: the readers.
* `ReadHelper.Consistent`: signature and body of a helper agree, and both fit the family.

Results:
* `readHandler?_handler`, `readArm?_arm`: what the handler and the arm of a case say.
* `readHelper?_lines`: what a helper says.
* `readHelper?_consistent`: **every helper can be read, and it is consistent.**
-/

namespace DartUnion.Output

/-! ## What a helper says -/

/-- What an arm does without its handler. -/
inductive Guard where
  /-- The handler is called as it is. -/
  | unguarded
  /-- `orElse` is called, awaited or not. -/
  | orElse (awaited : Bool)
  /-- The answer is null. -/
  | null
  deriving Repr, DecidableEq

/-- A handler, as the signature of a helper declares it. -/
structure ReadHandler where
  required : Bool
  nullable : Bool
  /-- The answer comes later. -/
  later : Bool
  /-- What stands between the brackets of its type. -/
  takes : String
  deriving Repr, DecidableEq

/-- An arm that calls a handler. -/
structure ReadArm where
  binds : Bool
  guard : Guard
  awaited : Bool
  /-- What stands between the brackets of the call. -/
  arguments : String
  deriving Repr, DecidableEq

/-- A helper. -/
structure ReadHelper where
  /-- The answer comes later. -/
  later : Bool
  async : Bool
  orElse : Option ReadHandler
  handlers : List ReadHandler
  arms : List ReadArm
  deriving Repr, DecidableEq

/-! ## Readers -/

/-- The first of two readings, or the second. -/
def eitherOf (first second : Option String) : Option (Bool × String) :=
  (first.map fun s => (false, s)).or (second.map fun s => (true, s))

/-- Whether a text starts with a word, and the text without it. -/
def dropFront (word text : String) : Bool × String :=
  match behind? word text with
  | some rest => (true, rest)
  | none => (false, text)

/-- Whether a text ends with a word, and the text without it. -/
def dropBack (word text : String) : Bool × String :=
  match before? word text with
  | some rest => (true, rest)
  | none => (false, text)

/-- One reading for each name, from as many texts as there are names. -/
def readEach? {α β : Type} (read : α → String → Option β) : List α → List String → Option (List β)
  | [], [] => some []
  | x :: xs, t :: ts => do return (← read x t) :: (← readEach? read xs ts)
  | _, _ => none

/-- Whether handlers of a type answer later, and what they take. -/
def readType? (text : String) : Option (Bool × String) := do
  let front ← before? ")" text
  eitherOf (behind? "Result Function(" front) (behind? "Future<Result> Function(" front)

/-- The handler of a label. -/
def readHandler? (label text : String) : Option ReadHandler := do
  let front ← before? (" " ++ label ++ ",") text
  let required := dropFront "required " front
  let nullable := dropBack "?" required.2
  let type ← readType? nullable.2
  return ⟨required.1, nullable.1, type.1, type.2⟩

/-- The handlers of a signature: one for each label, and one for `orElse` in front of them when there
is a text more than labels. -/
def readSignature? (labels ts : List String) : Option (Option ReadHandler × List ReadHandler) :=
  ((readEach? readHandler? labels ts).map fun hs => (none, hs)).or <|
    match ts with
    | [] => none
    | t :: ts => do return (← readHandler? "orElse" t, ← readEach? readHandler? labels ts)

/-- Whether a call is awaited, and its arguments. -/
def readCall? (front text : String) : Option (Bool × String) := do
  let call ← before? ")" text
  eitherOf (behind? front call) (behind? ("await " ++ front) call)

/-- What an arm does without the handler of a label, whether it awaits the handler and what it passes. -/
def readDispatch? (label text : String) : Option (Guard × Bool × String) :=
  match behind? (label ++ " != null ? ") text with
  | some rest => do
    let call ← eitherOf (before? " : orElse()" rest) (before? " : await orElse()" rest)
    return (.orElse call.1, ← readCall? (label ++ "(") call.2)
  | none =>
    ((readCall? (label ++ "(") text).map fun call => (.unguarded, call)).or
      ((readCall? (label ++ "?.call(") text).map fun call => (.null, call))

/-- The arm of a type and a label. -/
def readArm? (binding : String) (names : String × String) (text : String) : Option ReadArm := do
  let arm ← readPattern? names.1 binding text
  let body ← before? "," arm.2
  let dispatch ← readDispatch? names.2 body
  return ⟨arm.1, dispatch.1, dispatch.2.1, dispatch.2.2⟩

/-- Whether the line between signature and body makes the body asynchronous. -/
def readAsync? (l : Line) : Option Bool :=
  if l = ⟨0, "\x7d) async \x7b"⟩ then some true
  else if l = ⟨0, "\x7d) \x7b"⟩ then some false
  else none

/-- The body of a helper: whether it is asynchronous, and its arms. -/
def readArms? (binding : String) (names : List (String × String)) :
    List Line → Option (Bool × List ReadArm)
  | closing :: opening :: ls => do
    let async ← readAsync? closing
    let arms ← readEach? (readArm? binding) names ((ls.takeWhile (·.depth == 2)).map Line.text)
    if opening = ⟨1, "return switch (this) \x7b"⟩ ∧
        ls.dropWhile (·.depth == 2) = [⟨1, "\x7d;"⟩, ⟨0, "\x7d"⟩] then
      some (async, arms)
    else none
  | _ => none

/-- A helper over the cases with these types and labels. -/
def readHelper? (name binding : String) (names : List (String × String)) :
    List Line → Option ReadHelper
  | [] => none
  | l :: ls => do
    let returns ← before? (" " ++ name ++ "<Result extends Object?>(\x7b") l.text
    let signature ← readSignature? (names.map Prod.snd)
      ((ls.takeWhile (·.depth == 1)).map Line.text)
    let body ← readArms? binding names (ls.dropWhile (·.depth == 1))
    return ⟨(behind? "Future<" returns).isSome, body.1, signature.1, signature.2, body.2⟩

/-! ## Reading words and lists -/

theorem dropFront_append (word text : String) : dropFront word (word ++ text) = (true, text) := by
  rw [dropFront, behind?_append]

theorem dropFront_eq_self {word text : String} (h : behind? word text = none) :
    dropFront word text = (false, text) := by
  rw [dropFront, h]

theorem dropBack_append (text word : String) : dropBack word (text ++ word) = (true, text) := by
  rw [dropBack, before?_append]

theorem dropBack_eq_self {word text : String} (h : before? word text = none) :
    dropBack word text = (false, text) := by
  rw [dropBack, h]

/-- The first reading fails where the second is meant. -/
theorem eitherOf_eq_some {first second : Option String} {s : String} {b : Bool}
    (hf : first = if b then none else some s) (hs : b = true → second = some s) :
    eitherOf first second = some (b, s) := by
  cases b with
  | false =>
    rw [hf]
    rfl
  | true =>
    rw [hf, hs rfl]
    rfl

section

variable {α β : Type} {read : α → String → Option β}

theorem readEach?_map {names : Variant → α} {text : Variant → String} {said : Variant → β}
    {vs : List Variant} (h : ∀ v ∈ vs, read (names v) (text v) = some (said v)) :
    readEach? read (vs.map names) (vs.map text) = some (vs.map said) := by
  induction vs with
  | nil => rfl
  | cons v vs ih =>
    rw [List.map_cons, List.map_cons, List.map_cons, readEach?, h v List.mem_cons_self,
      ih fun w hw => h w (List.mem_cons_of_mem v hw)]
    rfl

/-- More texts than names give no reading. -/
theorem readEach?_eq_none {xs : List α} {ts : List String} (h : xs.length < ts.length) :
    readEach? read xs ts = none := by
  induction xs generalizing ts with
  | nil =>
    cases ts with
    | nil => exact absurd h (Nat.lt_irrefl 0)
    | cons t ts => rfl
  | cons x xs ih =>
    cases ts with
    | nil => exact absurd h (Nat.not_lt_zero _)
    | cons t ts =>
      rw [readEach?, ih (Nat.lt_of_succ_lt_succ h)]
      cases read x t <;> rfl

end

/-! ## Handlers -/

theorem behind?_answerType (async : Bool) (text : String) :
    behind? "Result Function(" (answerType async ++ " Function(" ++ text) =
      if async then none else some text := by
  cases async with
  | false => exact behind?_append "Result Function(" text
  | true =>
    have hhead : ("Future<Result>" ++ (" Function(" ++ text)).toList.head? = some 'F' := by
      rw [String.toList_append, List.head?_append]
      rfl
    rw [String.append_assoc]
    exact behind?_eq_none_of_head? (c := 'R') rfl hhead (by decide)

theorem readType?_text (t : HandlerType) : readType? t.text = some (t.async, commas t.takes) := by
  have hfront := behind?_answerType t.async (commas t.takes)
  have hfuture (h : t.async = true) : behind? "Future<Result> Function("
      (answerType t.async ++ " Function(" ++ commas t.takes) = some (commas t.takes) := by
    rw [h]
    exact behind?_append "Future<Result> Function(" _
  rw [readType?, HandlerType.text, before?_append]
  exact eitherOf_eq_some hfront hfuture

/-- A type of handlers is no keyword and ends with a bracket. -/
theorem handlerType_bare (t : HandlerType) (text : String) :
    behind? "required " (t.text ++ text) = none ∧ before? "?" t.text = none := by
  obtain ⟨takes, async⟩ := t
  have hfront : behind? "required " (answerType async ++ (" Function(" ++
      (commas takes ++ (")" ++ text)))) = none := by
    have hhead : (answerType async ++ (" Function(" ++ (commas takes ++ (")" ++ text)))).toList.head? =
        some (if async then 'F' else 'R') := by
      rw [String.toList_append, List.head?_append]
      cases async <;> rfl
    refine behind?_eq_none_of_head? (c := 'r') rfl hhead ?_
    cases async <;> decide
  refine ⟨?_, before?_eq_none ?_⟩
  · simpa only [HandlerType.text, String.append_assoc] using hfront
  · rw [HandlerType.text, String.toList_append, List.reverse_append]
    rfl

/-- **The handler of a label** is read back. -/
theorem readHandler?_text (h : Handler) :
    readHandler? h.label h.text =
      some ⟨h.required, !h.required, h.type.async, commas h.type.takes⟩ := by
  have htext : h.text = (if h.required then "required " ++ h.type.text else h.type.text ++ "?") ++
      (" " ++ h.label ++ ",") := by
    simp only [Handler.text, String.append_assoc]
  rw [readHandler?, htext, before?_append]
  cases h.required with
  | true =>
    obtain ⟨-, hback⟩ := handlerType_bare h.type ""
    simp only [Option.bind_eq_bind, Option.bind_some, if_true, dropFront_append,
      dropBack_eq_self hback, readType?_text, Option.pure_def, Bool.not_true]
  | false =>
    obtain ⟨hfront, -⟩ := handlerType_bare h.type "?"
    simp only [Option.bind_eq_bind, Option.bind_some, Bool.false_eq_true, if_false,
      dropFront_eq_self hfront, dropBack_append, readType?_text, Option.pure_def, Bool.not_false]

/-! ## Calls -/

/-- What stands behind a label: it holds a character that `await` does not have, and no further from
its front than `await` is long. -/
def IsMark (mark : String) : Prop :=
  ∃ near c rest, mark.toList = near ++ c :: rest ∧ c ∉ "await ".toList ∧
    near.length < "await ".toList.length

theorem isMark_call : IsMark "(" := ⟨[], '(', [], rfl, by decide, by decide⟩

theorem isMark_nullCall : IsMark "?.call(" := ⟨[], '?', ".call(".toList, rfl, by decide, by decide⟩

theorem isMark_test : IsMark " != null ? " :=
  ⟨[' '], '!', "= null ? ".toList, rfl, by decide, by decide⟩

/-- A label with a mark behind it is not that label behind `await`. -/
theorem IsMark.ne_await {mark : String} (h : IsMark mark) (label s t : List Char) :
    label ++ (mark.toList ++ s) ≠ "await ".toList ++ (label ++ t) := by
  obtain ⟨near, c, rest, he, hc, hn⟩ := h
  rw [he, List.append_assoc, List.cons_append]
  exact append_ne_shifted hc hn

/-- Texts that start with different characters. -/
theorem append_ne_of_head? {x y : List Char} {c d : Char} (hx : x.head? = some c)
    (hy : y.head? = some d) (hne : c ≠ d) (s t : List Char) : x ++ s ≠ y ++ t := by
  intro he
  have hheads := congrArg List.head? he
  rw [List.head?_append, List.head?_append, hx, hy] at hheads
  exact hne (Option.some.inj hheads)

/-- A call with what stands behind its opening bracket, awaited or not. -/
def invocation (awaited : Bool) (front rest : String) : String :=
  (if awaited then "await " else "") ++ (front ++ rest)

theorem toList_invocation (awaited : Bool) (label mark rest : String) :
    (invocation awaited (label ++ mark) rest).toList =
      (if awaited then "await ".toList else []) ++ (label.toList ++ (mark.toList ++ rest.toList)) := by
  rw [invocation, String.toList_append, String.toList_append, String.toList_append,
    List.append_assoc]
  cases awaited <;> rfl

theorem invocation_append (awaited : Bool) (front arguments : String) :
    invocation awaited front (arguments ++ ")") = invocation awaited front arguments ++ ")" := by
  simp only [invocation, String.append_assoc]

section

variable {mark other : String} (hm : IsMark mark) (ho : IsMark other)
  (hne : ∀ s t, mark.toList ++ s ≠ other.toList ++ t) (awaited : Bool) (label rest : String)

include hm

/-- A label with its mark is found in front of a call that is not awaited. -/
theorem behind?_invocation : behind? (label ++ mark) (invocation awaited (label ++ mark) rest) =
    if awaited then none else some rest := by
  cases awaited with
  | false =>
    rw [invocation, if_neg Bool.false_ne_true, String.empty_append, behind?_append]
    rfl
  | true =>
    refine behind?_eq_none fun s he => ?_
    rw [toList_invocation, String.toList_append, List.append_assoc] at he
    exact hm.ne_await label.toList s _ he.symm

include hne

/-- A label with another mark is not found in front of a call. -/
theorem behind?_invocation_eq_none :
    behind? (label ++ mark) (invocation awaited (label ++ other) rest) = none := by
  refine behind?_eq_none fun s he => ?_
  rw [toList_invocation, String.toList_append, List.append_assoc] at he
  cases awaited with
  | false =>
    rw [if_neg Bool.false_ne_true, List.nil_append] at he
    exact hne s _ (List.append_cancel_left he).symm
  | true => exact hm.ne_await label.toList s _ he.symm

omit hm

include ho

/-- Nor is it found behind `await`. -/
theorem behind?_await_eq_none :
    behind? ("await " ++ (label ++ mark)) (invocation awaited (label ++ other) rest) = none := by
  refine behind?_eq_none fun s he => ?_
  rw [toList_invocation, String.toList_append, String.toList_append, List.append_assoc,
    List.append_assoc] at he
  cases awaited with
  | false => exact ho.ne_await label.toList rest.toList _ he
  | true => exact hne s _ (List.append_cancel_left (List.append_cancel_left he)).symm

end

/-- **A call** is read back. -/
theorem readCall?_invocation {mark : String} (hm : IsMark mark) (awaited : Bool)
    (label arguments : String) :
    readCall? (label ++ mark) (invocation awaited (label ++ mark) (arguments ++ ")")) =
      some (awaited, arguments) := by
  rw [readCall?, invocation_append, before?_append]
  refine eitherOf_eq_some (behind?_invocation hm awaited label arguments) ?_
  rintro rfl
  rw [invocation, if_pos rfl, ← String.append_assoc]
  exact behind?_append _ _

/-- A call with a mark is none with another one. -/
theorem readCall?_eq_none {mark other : String} (hm : IsMark mark) (ho : IsMark other)
    (hne : ∀ s t, mark.toList ++ s ≠ other.toList ++ t) (awaited : Bool)
    (label arguments : String) :
    readCall? (label ++ mark) (invocation awaited (label ++ other) (arguments ++ ")")) = none := by
  rw [readCall?, invocation_append, before?_append]
  show eitherOf _ _ = none
  rw [behind?_invocation_eq_none hm hne, behind?_await_eq_none ho hne]
  rfl

/-! ## Dispatches -/

/-- The guard that an arm needs. -/
def Absence.guard (async : Bool) : Absence → Guard
  | .impossible => .unguarded
  | .orElse => .orElse async
  | .null => .null

/-- The call of `orElse` behind a call, awaited or not, is told by how it ends. -/
theorem eitherOf_orElse (async : Bool) (call : String) :
    eitherOf (before? " : orElse()" (call ++ if async then " : await orElse()" else " : orElse()"))
      (before? " : await orElse()"
        (call ++ if async then " : await orElse()" else " : orElse()")) = some (async, call) := by
  refine eitherOf_eq_some ?_ ?_
  · cases async with
    | false => exact before?_append _ _
    | true =>
      refine before?_eq_none ?_
      rw [String.toList_append, List.reverse_append]
      rfl
  · rintro rfl
    exact before?_append _ _

/-- A dispatch in the order in which it is read. -/
theorem dispatch_text (label : String) (arguments : List String) (absence : Absence)
    (async : Bool) : (Dispatch.mk label arguments absence async).text =
      match absence with
      | .impossible => invocation async (label ++ "(") (commas arguments ++ ")")
      | .orElse => label ++ " != null ? " ++
          (invocation async (label ++ "(") (commas arguments ++ ")") ++
            if async then " : await orElse()" else " : orElse()")
      | .null => invocation async (label ++ "?.call(") (commas arguments ++ ")") := by
  cases absence with
  | impossible => simp only [Dispatch.text, invocation, String.append_assoc]
  | orElse =>
    cases async <;>
      · simp only [Dispatch.text, invocation, String.append_assoc]
        rfl
  | null =>
    simp only [Dispatch.text, invocation, String.append_assoc]
    rfl

/-- **What an arm does** is read back. -/
theorem readDispatch?_text (d : Dispatch) :
    readDispatch? d.label d.text = some (d.absence.guard d.async, d.async, commas d.arguments) := by
  obtain ⟨label, arguments, absence, async⟩ := d
  -- The label may be any text, so each reading that is tried too early has to be refuted: it would put
  -- another mark behind the label than the dispatch has, or take `await` for a part of the label.
  have hcall := readCall?_invocation isMark_call async label (commas arguments)
  rw [dispatch_text]
  cases absence with
  | impossible =>
    have hmarks := append_ne_of_head? (x := " != null ? ".toList) (y := "(".toList) rfl rfl
      (by decide)
    have htest := behind?_invocation_eq_none isMark_test hmarks async label (commas arguments ++ ")")
    simp only [readDispatch?, htest, hcall, Option.map_some, Option.some_or, Absence.guard]
  | orElse =>
    have helse := eitherOf_orElse async (invocation async (label ++ "(") (commas arguments ++ ")"))
    simp only [readDispatch?, behind?_append, helse, hcall, Option.bind_eq_bind, Option.bind_some,
      Option.pure_def, Absence.guard]
  | null =>
    have htestMark := append_ne_of_head? (x := " != null ? ".toList) (y := "?.call(".toList) rfl
      rfl (by decide)
    have hcallMark := append_ne_of_head? (x := "(".toList) (y := "?.call(".toList) rfl rfl
      (by decide)
    have htest := behind?_invocation_eq_none isMark_test htestMark async label
      (commas arguments ++ ")")
    have hplain := readCall?_eq_none isMark_call isMark_nullCall hcallMark async label
      (commas arguments)
    have hnull := readCall?_invocation isMark_nullCall async label (commas arguments)
    simp only [readDispatch?, htest, hplain, hnull, Option.map_none, Option.none_or,
      Option.map_some, Absence.guard]

/-! ## Cases in a family -/

/-- What the handler of a case takes. -/
def Family.takes (f : Family) (binding : String) (v : Variant) : List String :=
  match f.receives with
  | .fields => v.parameters.map typed
  | .case => [v.typeName ++ " " ++ binding]

/-- What the arm of a case passes. -/
def Family.passes (f : Family) (binding : String) (v : Variant) : List String :=
  match f.receives with
  | .fields => v.parameters.map (field binding)
  | .case => [binding]

/-- What the handler of a case says. -/
def Family.handlerSaid (f : Family) (binding : String) (v : Variant) : ReadHandler :=
  ⟨f.absence == .impossible, !(f.absence == .impossible), f.async, commas (f.takes binding v)⟩

/-- What the arm of a case says. -/
def Family.armSaid (f : Family) (binding : String) (v : Variant) : ReadArm :=
  ⟨!(f.passes binding v).isEmpty, f.absence.guard f.async, f.async, commas (f.passes binding v)⟩

/-- What the parameter for `orElse` says, in a family that asks for it. -/
def Family.orElseSaid (f : Family) : Option ReadHandler :=
  if f.absence = .orElse then some ⟨true, false, f.async, ""⟩ else none

/-- What a helper says. -/
def Family.helperSaid (f : Family) (vs : List Variant) (binding : String) : ReadHelper :=
  ⟨f.async, f.async, f.orElseSaid, vs.map (f.handlerSaid binding), vs.map (f.armSaid binding)⟩

section

variable (f : Family) (binding : String)

theorem readHandler?_handler (v : Variant) :
    readHandler? v.label (f.handler binding v).text = some (f.handlerSaid binding v) := by
  have htype : (f.handler binding v).type = ⟨f.takes binding v, f.async⟩ := by
    unfold Family.handler Family.takes
    cases f.receives <;> rfl
  have hread := readHandler?_text (f.handler binding v)
  rw [htype] at hread
  exact hread

theorem readArm?_arm (v : Variant) :
    readArm? binding (v.typeName, v.label)
      (Arm.mk (f.arm binding v).1 (f.arm binding v).2.text).text = some (f.armSaid binding v) := by
  rw [readArm?, Arm.text, String.append_assoc]
  unfold Family.arm Family.armSaid Family.passes
  cases f.receives with
  | fields =>
    have hread := readDispatch?_text ⟨v.label, v.parameters.map (field binding), f.absence, f.async⟩
    simp only [readPattern?_ofVariant, Option.bind_eq_bind, Option.bind_some, before?_append,
      Option.pure_def, List.isEmpty_map] at hread ⊢
    rw [hread]
    rfl
  | case =>
    have hread := readDispatch?_text ⟨v.label, [binding], f.absence, f.async⟩
    simp only [readPattern?_bind, Option.bind_eq_bind, Option.bind_some, before?_append,
      Option.pure_def] at hread ⊢
    rw [hread]
    rfl

theorem readSignature?_handlerTexts (vs : List Variant) :
    readSignature? (vs.map Variant.label) (handlerTexts f vs binding) =
      some (f.orElseSaid, vs.map (f.handlerSaid binding)) := by
  have hhandlers : readEach? readHandler? (vs.map Variant.label)
      (vs.map fun v => (f.handler binding v).text) = some (vs.map (f.handlerSaid binding)) :=
    readEach?_map fun v _ => readHandler?_handler f binding v
  unfold handlerTexts Family.orElseSaid
  by_cases h : f.absence = .orElse
  · -- One text more than labels: the reading without `orElse` runs out of labels.
    have hread : readHandler? "orElse" ("required " ++ answerType f.async ++ " Function() orElse,") =
        some ⟨true, false, f.async, ""⟩ := by
      cases f.async with
      | false => exact readHandler?_text ⟨"orElse", ⟨[], false⟩, true⟩
      | true => exact readHandler?_text ⟨"orElse", ⟨[], true⟩, true⟩
    have hnone : readEach? readHandler? (vs.map Variant.label)
        (("required " ++ answerType f.async ++ " Function() orElse,") ::
          vs.map fun v => (f.handler binding v).text) = none :=
      readEach?_eq_none (by simp)
    simp only [if_pos h, Option.toList_some, List.map_cons, List.map_nil, List.singleton_append,
      readSignature?, hnone, hread, hhandlers, Option.map_none, Option.none_or,
      Option.bind_eq_bind, Option.bind_some, Option.pure_def]
  · simp only [if_neg h, Option.toList_none, List.map_nil, List.nil_append, readSignature?,
      hhandlers, Option.map_some, Option.some_or]

/-! ## Lines of a helper -/

/-- Lines at one depth in front of a line at another. -/
theorem takeWhile_depth {depth : Nat} {l : Line} (h : l.depth ≠ depth) (ts : List String)
    (ls : List Line) :
    ((ts.map fun t => (⟨depth, t⟩ : Line)) ++ l :: ls).takeWhile (·.depth == depth) =
      ts.map (fun t => ⟨depth, t⟩) ∧
    ((ts.map fun t => (⟨depth, t⟩ : Line)) ++ l :: ls).dropWhile (·.depth == depth) = l :: ls := by
  have hdepth : ∀ m ∈ ts.map (fun t => (⟨depth, t⟩ : Line)), (m.depth == depth) = true := by
    intro m hm
    obtain ⟨t, -, rfl⟩ := List.mem_map.1 hm
    exact beq_self_eq_true depth
  rw [List.takeWhile_append_of_pos hdepth, List.dropWhile_append_of_pos hdepth,
    List.takeWhile_cons_of_neg (by simpa using h), List.dropWhile_cons_of_neg (by simpa using h),
    List.append_nil]
  exact ⟨rfl, rfl⟩

theorem method_lines (vs : List Variant) :
    (f.method vs binding).lines =
      ⟨0, f.returns ++ " " ++ f.name ++ "<Result extends Object?>(\x7b"⟩ ::
        ((handlerTexts f vs binding).map (fun t => ⟨1, t⟩) ++
          ⟨0, if f.async then "\x7d) async \x7b" else "\x7d) \x7b"⟩ ::
          ⟨1, "return switch (this) \x7b"⟩ ::
          ((armTexts f vs binding).map (fun t => ⟨2, t⟩) ++ [⟨1, "\x7d;"⟩, ⟨0, "\x7d"⟩])) := by
  unfold Method.lines Family.method handlerTexts armTexts
  simp only [List.map_append, List.map_map, List.append_assoc, List.cons_append, List.nil_append]
  rfl

theorem readArms?_armTexts (vs : List Variant) :
    readArms? binding (vs.map fun v => (v.typeName, v.label))
      (⟨0, if f.async then "\x7d) async \x7b" else "\x7d) \x7b"⟩ ::
        ⟨1, "return switch (this) \x7b"⟩ ::
        ((armTexts f vs binding).map (fun t => ⟨2, t⟩) ++ [⟨1, "\x7d;"⟩, ⟨0, "\x7d"⟩])) =
      some (f.async, vs.map (f.armSaid binding)) := by
  have hasync : readAsync? ⟨0, if f.async then "\x7d) async \x7b" else "\x7d) \x7b"⟩ =
      some f.async := by
    cases f.async <;> rfl
  have harms : readEach? (readArm? binding) (vs.map fun v => (v.typeName, v.label))
      (armTexts f vs binding) = some (vs.map (f.armSaid binding)) :=
    readEach?_map fun v _ => readArm?_arm f binding v
  have hdepth : (⟨1, "\x7d;"⟩ : Line).depth ≠ 2 := by decide
  obtain ⟨htake, hdrop⟩ := takeWhile_depth hdepth (armTexts f vs binding) [⟨0, "\x7d"⟩]
  simp only [readArms?, hasync, htake, hdrop, map_text, harms, Option.bind_eq_bind,
    Option.bind_some, and_self, if_true]

/-- **A helper** is read back. -/
theorem readHelper?_lines (vs : List Variant) :
    readHelper? f.name binding (vs.map fun v => (v.typeName, v.label))
      (f.method vs binding).lines = some (f.helperSaid vs binding) := by
  have hopening : f.returns ++ " " ++ f.name ++ "<Result extends Object?>(\x7b" =
      f.returns ++ (" " ++ f.name ++ "<Result extends Object?>(\x7b") := by
    simp only [String.append_assoc]
  have hreturns : (behind? "Future<" f.returns).isSome = f.async := by
    obtain ⟨receives, absence, async⟩ := f
    cases receives <;> cases absence <;> cases async <;> decide
  have hlabels : (vs.map fun v => (v.typeName, v.label)).map Prod.snd = vs.map Variant.label := by
    rw [List.map_map]
    rfl
  have hdepth : (⟨0, if f.async then "\x7d) async \x7b" else "\x7d) \x7b"⟩ : Line).depth ≠ 1 :=
    Nat.zero_ne_one
  obtain ⟨htake, hdrop⟩ := takeWhile_depth hdepth (handlerTexts f vs binding)
    (⟨1, "return switch (this) \x7b"⟩ ::
      ((armTexts f vs binding).map (fun t => ⟨2, t⟩) ++ [⟨1, "\x7d;"⟩, ⟨0, "\x7d"⟩]))
  rw [method_lines, readHelper?, hopening, before?_append]
  simp only [htake, hdrop, map_text, hlabels, hreturns, readSignature?_handlerTexts,
    readArms?_armTexts, Option.bind_eq_bind, Option.bind_some, Option.pure_def]
  rfl

end

/-! ## Consistency -/

/-- The arm of a case passes what its handler takes: as much of it as there is, and to pass anything
it binds the case. -/
structure Fits (f : Family) (binding : String) (v : Variant) (h : ReadHandler) (a : ReadArm) :
    Prop where
  takes : h.takes = commas (f.takes binding v)
  arguments : a.arguments = commas (f.passes binding v)
  length : (f.passes binding v).length = (f.takes binding v).length
  binds_iff : a.binds = true ↔ f.passes binding v ≠ []

/-- Signature and body of a helper say the same thing, and it is what its family is for. -/
structure ReadHelper.Consistent (r : ReadHelper) (f : Family) (vs : List Variant)
    (binding : String) : Prop where
  /-- Each case has one handler and one arm. -/
  handlers_length : r.handlers.length = vs.length
  arms_length : r.arms.length = vs.length
  /-- A handler has to be given, and is called as it is, exactly where nothing stands in for it.
  Elsewhere it may be null, and the arm is guarded against that. -/
  required_iff : ∀ h ∈ r.handlers, h.required = true ↔ f.absence = .impossible
  nullable_iff : ∀ h ∈ r.handlers, h.nullable = true ↔ f.absence ≠ .impossible
  unguarded_iff : ∀ a ∈ r.arms, a.guard = .unguarded ↔ f.absence = .impossible
  /-- `orElse` is declared exactly when every arm falls back to it. It is required, takes nothing and
  answers when the helper does. -/
  orElse_iff : r.orElse.isSome = true ↔ ∀ a ∈ r.arms, ∃ awaited, a.guard = .orElse awaited
  orElse_said : ∀ h ∈ r.orElse, h = ⟨true, false, r.async, ""⟩
  /-- A helper that answers later is asynchronous. -/
  later_eq : r.later = r.async
  /-- It is so exactly when all handlers answer later and all calls are awaited. -/
  async_iff : r.async = true ↔ (∀ h ∈ r.handlers, h.later = true) ∧
    ∀ a ∈ r.arms, a.awaited = true ∧ ∀ awaited, a.guard = .orElse awaited → awaited = true
  /-- Otherwise no handler does and no call is. -/
  of_not_async : r.async = false → (∀ h ∈ r.handlers, h.later = false) ∧
    ∀ a ∈ r.arms, a.awaited = false ∧ ∀ awaited, a.guard = .orElse awaited → awaited = false
  /-- Each arm passes what the handler of its case takes. -/
  fits : ∀ v h a, (v, h, a) ∈ vs.zip (r.handlers.zip r.arms) → Fits f binding v h a

section

variable (f : Family) (binding : String)

theorem fits_said (v : Variant) :
    Fits f binding v (f.handlerSaid binding v) (f.armSaid binding v) where
  takes := rfl
  arguments := rfl
  length := by
    unfold Family.passes Family.takes
    cases f.receives with
    | fields => rw [List.length_map, List.length_map]
    | case => rfl
  binds_iff := by
    rw [Family.armSaid, Bool.not_eq_true', List.isEmpty_eq_false_iff]

/-- What the cases, their handlers and their arms say, side by side. -/
theorem zip_said (vs : List Variant) :
    vs.zip ((vs.map (f.handlerSaid binding)).zip (vs.map (f.armSaid binding))) =
      vs.map fun v => (v, f.handlerSaid binding v, f.armSaid binding v) := by
  induction vs with
  | nil => rfl
  | cons v vs ih =>
    rw [List.map_cons, List.map_cons, List.map_cons, List.zip_cons_cons, List.zip_cons_cons, ih]

theorem guard_eq_orElse_iff {absence : Absence} {async awaited : Bool} :
    absence.guard async = .orElse awaited ↔ absence = .orElse ∧ awaited = async := by
  cases absence with
  | impossible => exact iff_of_false (by simp [Absence.guard]) (by simp)
  | orElse =>
    simp only [Absence.guard, Guard.orElse.injEq, true_and]
    exact eq_comm
  | null => exact iff_of_false (by simp [Absence.guard]) (by simp)

theorem isSome_orElseSaid : f.orElseSaid.isSome = true ↔ f.absence = .orElse := by
  unfold Family.orElseSaid
  split
  · next h => exact iff_of_true rfl h
  · next h => exact iff_of_false Bool.false_ne_true h

/-- All handlers of a helper answer at one time, and all of its calls are awaited or none. -/
theorem async_said (vs : List Variant) :
    (∀ h ∈ vs.map (f.handlerSaid binding), h.later = f.async) ∧
    ∀ a ∈ vs.map (f.armSaid binding), a.awaited = f.async ∧
      ∀ awaited, a.guard = .orElse awaited → awaited = f.async := by
  constructor
  · intro h hh
    obtain ⟨v, -, rfl⟩ := List.mem_map.1 hh
    rfl
  · intro a ha
    obtain ⟨v, -, rfl⟩ := List.mem_map.1 ha
    exact ⟨rfl, fun awaited hawaited => (guard_eq_orElse_iff.1 hawaited).2⟩

theorem consistent_helperSaid {vs : List Variant} (hvs : vs ≠ []) :
    (f.helperSaid vs binding).Consistent f vs binding := by
  obtain ⟨w, hw⟩ := List.exists_mem_of_ne_nil vs hvs
  have hhandler := List.mem_map_of_mem (f := f.handlerSaid binding) hw
  have harm := List.mem_map_of_mem (f := f.armSaid binding) hw
  obtain ⟨hlater, hawaited⟩ := async_said f binding vs
  constructor
  case handlers_length => exact List.length_map _
  case arms_length => exact List.length_map _
  case required_iff =>
    intro h hh
    obtain ⟨v, -, rfl⟩ := List.mem_map.1 hh
    exact beq_iff_eq
  case nullable_iff =>
    intro h hh
    obtain ⟨v, -, rfl⟩ := List.mem_map.1 hh
    simp [Family.handlerSaid]
  case unguarded_iff =>
    intro a ha
    obtain ⟨v, -, rfl⟩ := List.mem_map.1 ha
    simp only [Family.armSaid]
    cases f.absence <;> simp [Absence.guard]
  case orElse_iff =>
    refine (isSome_orElseSaid f).trans ⟨fun h a ha => ?_, fun h => ?_⟩
    · obtain ⟨v, -, rfl⟩ := List.mem_map.1 ha
      exact ⟨f.async, guard_eq_orElse_iff.2 ⟨h, rfl⟩⟩
    · obtain ⟨awaited, hguard⟩ := h _ harm
      exact (guard_eq_orElse_iff.1 hguard).1
  case orElse_said =>
    intro h hh
    simp only [Family.helperSaid, Family.orElseSaid] at hh
    split at hh
    · exact (Option.some.inj hh).symm
    · cases hh
  case later_eq => rfl
  case async_iff =>
    refine ⟨fun h => ⟨fun k hk => (hlater k hk).trans h, fun a ha => ?_⟩, fun h => ?_⟩
    · obtain ⟨hcall, helse⟩ := hawaited a ha
      exact ⟨hcall.trans h, fun awaited hguard => (helse awaited hguard).trans h⟩
    · exact (hlater _ hhandler).symm.trans (h.1 _ hhandler)
  case of_not_async =>
    refine fun h => ⟨fun k hk => (hlater k hk).trans h, fun a ha => ?_⟩
    obtain ⟨hcall, helse⟩ := hawaited a ha
    exact ⟨hcall.trans h, fun awaited hguard => (helse awaited hguard).trans h⟩
  case fits =>
    intro v h a hm
    simp only [Family.helperSaid, zip_said] at hm
    obtain ⟨w, -, he⟩ := List.mem_map.1 hm
    cases he
    exact fits_said f binding v

end

/-- **Every helper is consistent.** Read by the types and the labels of the cases, its lines have one
handler and one arm for each, in order, and signature and body agree with each other and with the family:
on what has to be given, on what stands in for a handler, on when answers come and on what is passed. -/
theorem readHelper?_consistent (f : Family) (vs : List Variant) (hvs : vs ≠ []) (binding : String) :
    ∃ r, readHelper? f.name binding (vs.map fun v => (v.typeName, v.label))
        (f.method vs binding).lines = some r ∧
      r.Consistent f vs binding :=
  ⟨f.helperSaid vs binding, readHelper?_lines f binding vs, consistent_helperSaid f binding hvs⟩

/-- Names that look like parts of a call, and one that is the name of the fall-back. -/
theorem readHelper?_consistent_marks : ∃ f vs, f = ⟨.fields, .orElse, true⟩ ∧
    vs = [⟨"final Loading", "await orElse()", []⟩,
      ⟨"", "orElse", [⟨"a, b", "Result Function(int)?", none, .positional⟩]⟩] ∧ vs ≠ [] ∧
    ∃ r, readHelper? "maybeWhenAsync" "value != null ? value"
        [("final Loading", "await orElse()"), ("", "orElse")]
        (f.method vs "value != null ? value").lines = some r ∧
      r.Consistent f vs "value != null ? value" ∧ r.handlers.length = 2 ∧ r.arms.length = 2 ∧
      (∀ h ∈ r.handlers, h.nullable = true) ∧ ∀ a ∈ r.arms, a.guard ≠ .unguarded := by
  obtain ⟨r, hread, hr⟩ := readHelper?_consistent ⟨.fields, .orElse, true⟩
    [⟨"final Loading", "await orElse()", []⟩,
      ⟨"", "orElse", [⟨"a, b", "Result Function(int)?", none, .positional⟩]⟩]
    (by decide) "value != null ? value"
  refine ⟨_, _, rfl, rfl, by decide, r, hread, hr, hr.handlers_length, hr.arms_length,
    fun h hh => ?_, fun a ha => ?_⟩
  · rw [hr.nullable_iff h hh]
    decide
  · rw [Ne, hr.unguarded_iff a ha]
    decide

end DartUnion.Output
