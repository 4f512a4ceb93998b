import DartUnion.Output.Case
import DartUnion.Proofs.ArmReading

/-!
# What the text form shows

An arm of the text form is one literal. It holds the name of a type as text and the fields of the case
as interpolations, and both stand between the same quotes. The literal is read by the rules of the
language, so that nothing in the name of a type can open, close or disturb an interpolation, and nothing
in the name of a field can end one.

* `readTextArm?`: whether an arm binds the case, the parts of its literal, and what stands behind.
* `interpolations`: the expressions that a literal evaluates.
* `firstName?`: the name that an expression starts with, which is the one that it reads a field of.

Results:
* `readsAs_intercalate`: pieces with a separator read as their parts with the parts of the separator.
* `readsAs_fields`: the fields of a case read as one interpolation each.
* `interpolations_textParts`: the literal of a case evaluates its fields, in order.
* `readTextArm?_textArm`: **the text form shows the type of the case and each of its fields, in order.**
-/

namespace DartUnion.Output

open DartUnion.Dart DartUnion.Source

/-! ## Reading an arm of the text form -/

/-- Whether an arm over a type binds the value to the name, the parts of the literal behind its arrow,
and what stands behind the literal. -/
def readTextArm? (type name text : String) :
    Option (Bool × List LiteralPart × List Char) := do
  let (binds, body) ← readPattern? type name text
  let literal ← behind? "'" body
  let (parts, rest) ← readBody? literal.toList
  return (binds, parts, rest)

/-- The expression of an interpolation. -/
def interpolation? : LiteralPart → Option (List Char)
  | .char _ => none
  | .interpolation e => some e

/-- The expressions that a literal evaluates, in order. -/
def interpolations (parts : List LiteralPart) : List (List Char) :=
  parts.filterMap interpolation?

/-- The name that an expression starts with. -/
def firstName? (expression : List Char) : Option (List Char) :=
  (identifier.scan? expression).map Prod.fst

/-! ## Pieces of a literal -/

/-- Pieces with a separator between them. -/
theorem readsAs_intercalate {α : Type} {separator : List Char} {between : List LiteralPart}
    (hs : ReadsAs separator between) {text : α → List Char} {parts : α → List LiteralPart}
    {xs : List α} (h : ∀ x ∈ xs, ReadsAs (text x) (parts x)) :
    ReadsAs (separator.intercalate (xs.map text)) (between.intercalate (xs.map parts)) := by
  induction xs with
  | nil => exact readsAs_nil
  | cons x xs ih =>
    have hx := h x List.mem_cons_self
    have ih := ih fun y hy => h y (List.mem_cons_of_mem x hy)
    cases xs with
    | nil =>
      rw [List.map_singleton, List.map_singleton, List.intercalate_singleton,
        List.intercalate_singleton]
      exact hx
    | cons y ys =>
      rw [List.map_cons, List.map_cons, List.map_cons, List.map_cons,
        List.intercalate_cons_cons, List.intercalate_cons_cons]
      exact (hx.append hs).append ih

/-! ## Fields of a case -/

section

variable {v : Variant} {binding : String} (hb : identifier.accepts binding.toList = true)

include hb

/-- A field is read through the name that the case is bound to. -/
theorem firstName?_field (p : Parameter) :
    firstName? (field binding p).toList = some binding.toList := by
  have hfield : (field binding p).toList = binding.toList ++ '.' :: p.name.toList := by
    rw [field, String.toList_append, String.toList_append, List.append_assoc]
    rfl
  rw [firstName?, hfield, identifier.scan?_append hb (by rfl), Option.map_some]

variable (hp : ∀ p ∈ v.parameters, identifier.accepts p.name.toList = true)

include hp

/-- No field holds the brace that would end its interpolation. -/
theorem brace_not_mem_field {p : Parameter} (h : p ∈ v.parameters) :
    '}' ∉ (field binding p).toList := by
  intro hm
  rw [field, String.toList_append, String.toList_append, List.mem_append, List.mem_append] at hm
  rcases hm with (hm | hm) | hm
  · exact ne_of_next (next_of_accepts hb hm) rfl rfl
  · exact absurd hm (by decide)
  · exact ne_of_next (next_of_accepts (hp p h) hm) rfl rfl

/-- The fields of a case, each within braces, read as one interpolation each. -/
theorem readsAs_fields :
    ReadsAs (commas (v.parameters.map fun p => interpolated (field binding p))).toList
      ([.char ',', .char ' '].intercalate
        (v.parameters.map fun p => [.interpolation (field binding p).toList])) := by
  have hseparator : ReadsAs ", ".toList [.char ',', .char ' '] :=
    readsAs_escape (s := ", ".toList) (by decide)
  have hfields : ∀ p ∈ v.parameters, ReadsAs (interpolated (field binding p)).toList
      [.interpolation (field binding p).toList] := by
    intro p h
    rw [interpolated, String.toList_append, String.toList_append, List.append_assoc]
    exact readsAs_interpolation (brace_not_mem_field hb hp h)
  have htext : (commas (v.parameters.map fun p => interpolated (field binding p))).toList =
      ", ".toList.intercalate (v.parameters.map fun p => (interpolated (field binding p)).toList) := by
    rw [commas, String.toList_intercalate, List.map_map]
    rfl
  rw [htext]
  exact readsAs_intercalate hseparator hfields

end

/-! ## Interpolations -/

theorem interpolations_append (ps qs : List LiteralPart) :
    interpolations (ps ++ qs) = interpolations ps ++ interpolations qs := List.filterMap_append

theorem interpolations_chars (s : List Char) : interpolations (s.map .char) = [] := by
  rw [interpolations, List.filterMap_eq_nil_iff]
  intro p hp
  obtain ⟨c, -, rfl⟩ := List.mem_map.1 hp
  rfl

/-- Interpolations with text between them. -/
theorem interpolations_intercalate (s : List Char) (es : List (List Char)) :
    interpolations ((s.map LiteralPart.char).intercalate (es.map fun e => [.interpolation e])) =
      es := by
  induction es with
  | nil => rfl
  | cons e es ih =>
    cases es with
    | nil =>
      rw [List.map_singleton, List.intercalate_singleton]
      rfl
    | cons f es =>
      rw [List.map_cons] at ih
      rw [List.map_cons, List.map_cons, List.intercalate_cons_cons, interpolations_append,
        interpolations_append, interpolations_chars, ih]
      rfl

/-! ## Arms of the text form -/

/-- The parts of the literal of a case. -/
def textParts (binding : String) (v : Variant) : List LiteralPart :=
  v.typeName.toList.map .char ++ [.char '('] ++
    [.char ',', .char ' '].intercalate
      (v.parameters.map fun p => [.interpolation (field binding p).toList]) ++ [.char ')']

/-- The interpolations of the literal are the fields of the case, in order. -/
theorem interpolations_textParts (binding : String) (v : Variant) :
    interpolations (textParts binding v) =
      v.parameters.map fun p => (field binding p).toList := by
  have hfields := interpolations_intercalate ", ".toList
    (v.parameters.map fun p => (field binding p).toList)
  rw [List.map_map] at hfields
  rw [textParts, interpolations_append, interpolations_append, interpolations_append,
    interpolations_chars]
  show [] ++ [] ++ interpolations _ ++ [] = _
  rw [List.append_nil, List.append_nil, List.nil_append]
  exact hfields

/-- A case is bound exactly when its text form reads a field of it. -/
theorem not_isUnit_iff {binding : String} (hb : identifier.accepts binding.toList = true)
    (v : Variant) : (!v.isUnit) = true ↔
      ∃ e ∈ interpolations (textParts binding v), firstName? e = some binding.toList := by
  rw [interpolations_textParts, Variant.isUnit, Bool.not_eq_true', List.isEmpty_eq_false_iff]
  constructor
  · intro hne
    obtain ⟨p, hp⟩ := List.exists_mem_of_ne_nil _ hne
    exact ⟨_, List.mem_map_of_mem hp, firstName?_field hb p⟩
  · rintro ⟨e, he, -⟩ hnil
    rw [hnil] at he
    cases he

/-- The literal of a case reads as its parts. -/
theorem readsAs_textParts {v : Variant} {binding : String} (ht : OnOneLine v.typeName.toList)
    (hp : ∀ p ∈ v.parameters, identifier.accepts p.name.toList = true)
    (hb : identifier.accepts binding.toList = true) :
    ReadsAs (escapeChars v.typeName.toList ++ ['('] ++
      (commas (v.parameters.map fun p => interpolated (field binding p))).toList ++ [')'])
      (textParts binding v) := by
  have hopening : ReadsAs ['('] [.char '('] := readsAs_escape (s := ['(']) (by decide)
  have hclosing : ReadsAs [')'] [.char ')'] := readsAs_escape (s := [')']) (by decide)
  exact (((readsAs_escape ht).append hopening).append (readsAs_fields hb hp)).append hclosing

/-- **The text form of a case shows its type and each of its fields, in order.** Whatever characters
the name of the type is made of, the literal reads as that name, a bracket, the fields of the case as
interpolations with commas between them, and a bracket; only the comma of the arm stands behind it.
The pattern binds the case exactly when an interpolation reads a field of what it binds. -/
theorem readTextArm?_textArm (v : Variant) (binding : String) (ht : OnOneLine v.typeName.toList)
    (hp : ∀ p ∈ v.parameters, identifier.accepts p.name.toList = true)
    (hb : identifier.accepts binding.toList = true) :
    ∃ binds parts, readTextArm? v.typeName binding (textArm binding v).text =
        some (binds, parts, [',']) ∧
      parts = v.typeName.toList.map .char ++ [.char '('] ++
        [.char ',', .char ' '].intercalate (v.parameters.map fun p =>
          [.interpolation (binding ++ "." ++ p.name).toList]) ++ [.char ')'] ∧
      (binds = true ↔ ∃ e ∈ interpolations parts, firstName? e = some binding.toList) := by
  let literal := escape v.typeName ++ "(" ++
    commas (v.parameters.map fun p => interpolated (field binding p)) ++ ")',"
  have htext : (textArm binding v).text =
      (Pattern.ofVariant v binding).text ++ " => " ++ ("'" ++ literal) := by
    simp only [textArm, Arm.text, literal, String.append_assoc]
    rfl
  have hchars : literal.toList = escapeChars v.typeName.toList ++ ['('] ++
      (commas (v.parameters.map fun p => interpolated (field binding p))).toList ++ [')'] ++
        '\'' :: [','] := by
    simp only [literal, String.toList_append, toList_escape, List.append_assoc]
    rfl
  have hread : readBody? literal.toList = some (textParts binding v, [',']) := by
    rw [hchars]
    exact (readsAs_textParts ht hp hb).closed [',']
  refine ⟨!v.isUnit, textParts binding v, ?_, rfl, not_isUnit_iff hb v⟩
  rw [readTextArm?, htext, readPattern?_ofVariant]
  simp only [Option.bind_eq_bind, Option.bind_some, behind?_append, hread, Option.pure_def]

/-- A type whose name looks like an interpolation behind the end of the literal. -/
theorem readTextArm?_textArm_quotes : ∃ v : Variant,
    v = ⟨"It's $\x7bvalue\x7d\\", "odd", [⟨"code", "int", none, .positional⟩,
      ⟨"$1", "Map<String, int>", none, .named⟩]⟩ ∧
    OnOneLine v.typeName.toList ∧ identifier.accepts "value".toList = true ∧
    ∃ parts, readTextArm? "It's $\x7bvalue\x7d\\" "value" (textArm "value" v).text =
        some (true, parts, [',']) ∧
      parts.takeWhile (· ≠ .char '(') = "It's $\x7bvalue\x7d\\".toList.map .char ∧
      interpolations parts = ["value.code".toList, "value.$1".toList] := by
  obtain ⟨binds, parts, hread, hparts, hbinds⟩ := readTextArm?_textArm
    ⟨"It's $\x7bvalue\x7d\\", "odd", [⟨"code", "int", none, .positional⟩,
      ⟨"$1", "Map<String, int>", none, .named⟩]⟩ "value" (by decide) (by decide) (by decide)
  have hfields : interpolations parts = ["value.code".toList, "value.$1".toList] := by
    rw [hparts]
    decide
  have htrue : binds = true := by
    rw [hbinds, hfields]
    decide
  refine ⟨_, rfl, by decide, by decide, parts, by rw [hread, htrue], ?_, hfields⟩
  rw [hparts]
  decide

end DartUnion.Output
