import DartUnion.Proofs.ArmReading
import DartUnion.Proofs.CoveredCases

/-!
# What the look-up finds

The look-up by label is a `switch` over strings. Its arms are literals, which have to be read by the
rules of the language to know which strings they take: a label may hold quotes, backslashes and
dollars. The first arm that takes a string is the one that counts, and the last arm takes all strings
that are left.

* `readStringArm?`: the string that an arm takes, and the expression behind its arrow.
* `readSwitch?`: the arms in front of the last one, and the expression of that one.
* `readLookUp?`: the `switch` of the look-up, read off its text.

Results:
* `readStringArm?_literal`: a label that holds no line end is read back from its arm.
* `code_holds_lookUp`: the code of a union holds the text of its look-up.
* `readLookUp?_render`: the `switch` of the look-up is read back from its text.
* `lookup_unitConstructions`: a string is found exactly when it is the label of a unit case.
* `readLookUp?_lookUpLines`: **the look-up finds the unit cases by their labels, and nothing else.**
-/

namespace DartUnion.Output

open DartUnion.Dart

/-! ## Reading a `switch` over strings -/

/-- The character that a part of a literal stands for, if it is no interpolation. -/
def plainChar? : LiteralPart → Option Char
  | .char c => some c
  | .interpolation _ => none

/-- The text that a literal without interpolations stands for. -/
def plainText? (parts : List LiteralPart) : Option String :=
  (parts.mapM plainChar?).map String.ofList

/-- The string that an arm takes, and the expression behind its arrow. -/
def readStringArm? (text : String) : Option (String × String) := do
  let literal ← behind? "'" text
  let (parts, rest) ← readBody? literal.toList
  let string ← plainText? parts
  let body ← behind? " => " (String.ofList rest)
  return (string, ← before? "," body)

/-- The arms in front of the one that takes what is left, and the expression of that one. -/
def readSwitch? : List String → Option (List (String × String) × String)
  | [] => none
  | t :: ts =>
    match behind? "_ => " t with
    | some body => (before? "," body).map fun body => ([], body)
    | none => do
      let arm ← readStringArm? t
      let (arms, body) ← readSwitch? ts
      return (arm :: arms, body)

/-- The line that opens the look-up of a union. -/
def lookUpOpening (union : String) : Line :=
  ⟨1, "factory " ++ union ++ ".fromString(String value) \x7b"⟩

/-- The line that opens a `switch` over a string. -/
def stringSwitchOpening : Line := ⟨2, "return switch (value) \x7b"⟩

/-- The `switch` of the look-up of a union. -/
def readLookUp? (union text : String) : Option (List (String × String) × String) :=
  readSwitch? ((linesBehind stringSwitchOpening (linesBehind (lookUpOpening union)
    (readLines text))).map Line.text)

/-! ## Arms -/

theorem plainText?_chars (s : List Char) : plainText? (s.map .char) = some (String.ofList s) := by
  have hchars : (s.map LiteralPart.char).mapM plainChar? = some (s.map id) :=
    mapM_eq_some_map fun _ _ => rfl
  rw [plainText?, hchars, List.map_id, Option.map_some]

/-- **The label is read back** from its arm. -/
theorem readStringArm?_literal {label : String} (h : OnOneLine label.toList) (body : String) :
    readStringArm? (Arm.mk (.literal label) body).text = some (label, body) := by
  have htext : (Arm.mk (.literal label) body).text =
      "'" ++ (escape label ++ ("'" ++ (" => " ++ (body ++ ",")))) := by
    simp only [Arm.text, Pattern.text, String.append_assoc]
  have hbody : readBody? (escape label ++ ("'" ++ (" => " ++ (body ++ ",")))).toList =
      some (label.toList.map .char, (" => " ++ (body ++ ",")).toList) := by
    rw [String.toList_append, @String.toList_append "'", toList_escape]
    exact readBody?_escape h _
  simp only [readStringArm?, htext, behind?_append, hbody, plainText?_chars, String.ofList_toList,
    before?_append, Option.bind_eq_bind, Option.bind_some, Option.pure_def]

theorem behind?_literal (label body : String) :
    behind? "_ => " (Arm.mk (.literal label) body).text = none := by
  refine behind?_eq_none fun s he => ?_
  simp only [Arm.text, Pattern.text, String.toList_append, List.append_assoc] at he
  exact absurd (List.cons.inj he).1 (by decide)

/-- Arms over labels are read back, up to the one that takes what is left. -/
theorem readSwitch?_labels {vs : List Variant} (h : ∀ v ∈ vs, OnOneLine v.label.toList)
    (body : Variant → String) (fallback : String) (rest : List String) :
    readSwitch? (vs.map (fun v => (Arm.mk (.literal v.label) (body v)).text) ++
      (Arm.mk .wildcard fallback).text :: rest) =
        some (vs.map fun v => (v.label, body v), fallback) := by
  induction vs with
  | nil =>
    have htext : (Arm.mk .wildcard fallback).text = "_ => " ++ (fallback ++ ",") := by
      have hmark : "_" ++ " => " = "_ => " := rfl
      simp only [Arm.text, Pattern.text, hmark, String.append_assoc]
    simp only [List.map_nil, List.nil_append, readSwitch?, htext, behind?_append, before?_append,
      Option.map_some]
  | cons v vs ih =>
    have ih := ih fun w hw => h w (List.mem_cons_of_mem v hw)
    have harm := readStringArm?_literal (h v List.mem_cons_self) (body v)
    simp only [List.map_cons, List.cons_append, readSwitch?, behind?_literal, harm, ih,
      Option.bind_eq_bind, Option.bind_some, Option.pure_def]

/-! ## The look-up in generated code -/

section

variable {o : Options} {d : Declaration}

/-- The lines of the look-up. -/
theorem lookUpLines_eq (ho : o.fromString = true) : lookUpLines o d =
    .blank :: lookUpOpening d.name :: stringSwitchOpening ::
      (((d.unitVariants.map fun v => (Arm.mk (.literal v.label) (construction d.name v)).text) ++
        [(Arm.mk .wildcard (fallbackBody o d)).text]).map (fun t => ⟨3, t⟩) ++
          [⟨2, "\x7d;"⟩, methodClosing]) := by
  rw [lookUpLines, if_pos ho, lookUpArms, filterMap_lookUpArm?]
  simp [lookUpOpening, stringSwitchOpening, methodClosing, Declaration.unitVariants,
    Function.comp_def]

/-- **The code of a union** holds the text of its look-up. -/
theorem code_holds_lookUp (hd : d.variants ≠ []) : ∃ front back,
    d.code o = .ok (front ++ render (lookUpLines o d) ++ back) := by
  let before : List Line :=
    importLines o ++ [⟨0, "sealed class " ++ d.name ++ " extends Equatable \x7b"⟩,
      ⟨1, "const " ++ d.name ++ "();"⟩, .blank] ++ d.variants.map fun v => ⟨1, redirect d.name v⟩
  let after : List Line :=
    [.blank] ++ textLines d ++ [⟨0, "\x7d"⟩] ++ [.blank] ++ extensionLines o d ++
      d.variants.flatMap fun v => .blank :: classLines d.name v
  have hlines : codeLines o d = before ++ lookUpLines o d ++ after := by
    simp only [codeLines, sealedLines, before, after, List.append_assoc]
  refine ⟨render before, render after, ?_⟩
  rw [Declaration.code, List.isEmpty_eq_false_iff.2 hd, if_neg Bool.false_ne_true, hlines,
    render_append, render_append]

end

/-! ## What is found -/

theorem construction_unit {v : Variant} (hv : v.isUnit = true) (union : String) :
    construction union v = "const " ++ union ++ "." ++ v.label ++ "()" := by
  rw [construction, if_pos hv]

/-- The unit cases under their labels. -/
def unitConstructions (d : Declaration) : List (String × String) :=
  d.unitVariants.map fun v => (v.label, "const " ++ d.name ++ "." ++ v.label ++ "()")

section

variable {d : Declaration}

/-- **The `switch` of the look-up** is read back from its text. -/
theorem readLookUp?_render {o : Options} (ho : o.fromString = true)
    (hn : OnOneLine d.name.toList) (hl : ∀ v ∈ d.variants, OnOneLine v.label.toList) :
    readLookUp? d.name (render (lookUpLines o d)) =
      some (unitConstructions d, fallbackBody o d) := by
  have hlegible : ∀ l ∈ lookUpLines o d, Legible l :=
    legible_lookUp (fun c hc => (hn c hc).1) fun v hv c hc => (hl v hv c hc).1
  have hlabels : ∀ v ∈ d.unitVariants, OnOneLine v.label.toList :=
    fun v hv => hl v (List.mem_filter.1 hv).1
  have hbodies : unitConstructions d =
      d.unitVariants.map fun v => (v.label, construction d.name v) :=
    List.map_congr_left fun v hv => by rw [construction_unit (List.mem_filter.1 hv).2]
  have hopening : lookUpOpening d.name ∉ [Line.blank] := fun hm =>
    absurd (congrArg Line.depth (List.mem_singleton.1 hm)) (by decide : (1 : Nat) ≠ 0)
  have hinner (ls : List Line) : linesBehind stringSwitchOpening (linesBehind (lookUpOpening d.name)
      ([.blank] ++ lookUpOpening d.name :: ([] ++ stringSwitchOpening :: ls))) = ls := by
    rw [linesBehind_append hopening, linesBehind_append List.not_mem_nil]
  rw [readLookUp?, readLines_render hlegible, lookUpLines_eq ho, hbodies]
  refine Eq.trans (congrArg (fun ls => readSwitch? (ls.map Line.text)) (hinner _)) ?_
  rw [List.map_append, map_text, List.append_assoc]
  exact readSwitch?_labels hlabels _ _ _

/-- **No label stands twice** in front of the arm that takes what is left. -/
theorem nodup_unitConstructions (hd : d.NamesDistinct) :
    ((unitConstructions d).map Prod.fst).Nodup := by
  have hlabels : (unitConstructions d).map Prod.fst = d.unitVariants.map Variant.label := by
    rw [unitConstructions, List.map_map]
    rfl
  rw [hlabels]
  exact hd.labels.sublist (List.filter_sublist.map _)

/-- A string is found exactly when it is the label of a unit case. -/
theorem lookup_unitConstructions (d : Declaration) (s : String) :
    (unitConstructions d).lookup s =
      if s ∈ d.unitVariants.map Variant.label then some ("const " ++ d.name ++ "." ++ s ++ "()")
      else none := by
  unfold unitConstructions
  induction d.unitVariants with
  | nil => rfl
  | cons v vs ih =>
    rw [List.map_cons, List.map_cons, List.lookup_cons, ih]
    by_cases hs : s = v.label
    · rw [hs, beq_self_eq_true, if_pos List.mem_cons_self]
    · rw [beq_false_of_ne hs]
      simp only [List.mem_cons, hs, false_or]

/-- **The look-up finds the unit cases by their labels, and nothing else.** The code of a union holds
its text. Read by the rules of the language it has one arm for each case without parameters, in order,
and no other in front of the last; the arm takes the label of the case and makes that case. No label
stands twice, so a string that is the label of a unit case is found by it, and every other string is
left to the last arm. -/
theorem readLookUp?_lookUpLines {o : Options} (ho : o.fromString = true) (hc : d.check = .ok ())
    (hn : OnOneLine d.name.toList) (hl : ∀ v ∈ d.variants, OnOneLine v.label.toList) :
    (d.variants ≠ [] →
      ∃ front back, d.code o = .ok (front ++ render (lookUpLines o d) ++ back)) ∧
    ∃ arms, readLookUp? d.name (render (lookUpLines o d)) = some (arms, fallbackBody o d) ∧
      arms = (d.variants.filter Variant.isUnit).map (fun v =>
        (v.label, "const " ++ d.name ++ "." ++ v.label ++ "()")) ∧
      (arms.map Prod.fst).Nodup ∧
      (∀ v ∈ d.variants, v.isUnit = true →
        arms.lookup v.label = some ("const " ++ d.name ++ "." ++ v.label ++ "()")) ∧
      ∀ s, (∀ v ∈ d.variants, v.isUnit = true → v.label ≠ s) → arms.lookup s = none := by
  refine ⟨code_holds_lookUp, _, readLookUp?_render ho hn hl, rfl,
    nodup_unitConstructions (check_eq_ok_iff_namesDistinct.1 hc), fun v hv hunit => ?_,
    fun s hs => ?_⟩
  · have hmem : v ∈ d.unitVariants := List.mem_filter.2 ⟨hv, hunit⟩
    rw [lookup_unitConstructions, if_pos (List.mem_map_of_mem hmem)]
  · rw [lookup_unitConstructions, if_neg]
    intro hm
    obtain ⟨v, hv, he⟩ := List.mem_map.1 hm
    exact hs v (List.mem_filter.1 hv).1 (List.mem_filter.1 hv).2 he

end

/-- Labels that look like parts of a literal or of an arm, and one of a case with a parameter. -/
theorem readLookUp?_lookUpLines_quotes : ∃ d : Declaration,
    d = ⟨"Status", [⟨"Odd", "it's", []⟩, ⟨"Failure", "_ => ", [⟨"message", "String", none,
      .positional⟩]⟩, ⟨"Price", "$\x7bvalue\x7d\\", []⟩, ⟨"Arm", "', => _", []⟩]⟩ ∧
    d.check = .ok () ∧
    (∃ front back, d.code {} = .ok (front ++ render (lookUpLines {} d) ++ back)) ∧
    ∃ arms, readLookUp? "Status" (render (lookUpLines {} d)) =
        some (arms, "const Status.it's()") ∧
      arms.map Prod.fst = ["it's", "$\x7bvalue\x7d\\", "', => _"] ∧
      arms.lookup "$\x7bvalue\x7d\\" = some "const Status.$\x7bvalue\x7d\\()" ∧
      arms.lookup "_ => " = none := by
  obtain ⟨hcode, arms, hread, harms, -, hfound, hleft⟩ := readLookUp?_lookUpLines
    (d := ⟨"Status", [⟨"Odd", "it's", []⟩, ⟨"Failure", "_ => ", [⟨"message", "String", none,
      .positional⟩]⟩, ⟨"Price", "$\x7bvalue\x7d\\", []⟩, ⟨"Arm", "', => _", []⟩]⟩) (o := {})
    rfl rfl (by decide) (by decide)
  refine ⟨_, rfl, rfl, hcode (by decide), arms, hread, ?_, ?_, hleft _ (by decide)⟩
  · rw [harms]
    rfl
  · exact hfound ⟨"Price", "$\x7bvalue\x7d\\", []⟩ (by decide) rfl

end DartUnion.Output
