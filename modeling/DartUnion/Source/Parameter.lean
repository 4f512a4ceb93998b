import DartUnion.Dart.Name
import DartUnion.Source.Piece

/-!
# Parameters

`parse_parameter_list` makes a parameter of each piece of a list. A piece is a parameter when, without
the annotations and modifiers in front and without a default, it is a type followed by blanks and an
identifier. Anything else is dropped and leaves the other pieces alone.

* Annotations (`dropAnnotations`, the pattern `ANNOTATIONS`): `@`, a name, perhaps arguments up to the
  first `)`, blanks.
* Modifiers (`dropModifier?`, `strip_keyword`): `required`, `covariant` and `final`, each at most once
  and in this order.
* Default (`splitDefault?`, `split_default`): what follows the first `=` outside of brackets that is no
  part of `==` or `=>`.
* Type (`typeAndName?`, the pattern `PARAM_SHAPE`): all up to the blanks in front of the last word; no
  line end may stand in it.

`Piece.parameter?` is `parse_parameter`, which puts these together.
-/

namespace DartUnion.Source

open DartUnion.Text DartUnion.Dart

/-- The text behind `word`, when it starts with it. -/
def dropWord? (word s : List Char) : Option (List Char) :=
  if word.isPrefixOf s then some (s.drop word.length) else none

/-- The text behind a run of blanks, of which there is at least one. -/
def dropBlanks? (s : List Char) : Option (List Char) :=
  if s.head?.any isBlank then some (trimStart s) else none

/-- The text behind an annotation and the blanks that follow it. -/
def dropAnnotation? : List Char → Option (List Char)
  | '@' :: s => do
    let (_, s) ← annotationName.scan? s
    let behind := match s with
      | '(' :: t =>
        match t.dropWhile (· != ')') with
        | ')' :: u => u
        | _ => s
      | _ => s
    return trimStart behind
  | _ => none

/-- An annotation is not empty. -/
theorem length_dropAnnotation? {s t : List Char} (h : dropAnnotation? s = some t) :
    t.length < s.length := by
  unfold dropAnnotation? at h
  split at h
  · next s =>
    simp only [Option.bind_eq_bind, Option.bind_eq_some_iff, Prod.exists] at h
    obtain ⟨name, r, hr, h⟩ := h
    have hlen := congrArg List.length (NameClass.scan?_eq_some hr).2
    have htrim : ∀ u : List Char, (trimStart u).length ≤ u.length := fun u =>
      (List.dropWhile_suffix _).length_le
    simp only [List.length_append] at hlen
    obtain rfl := Option.some.inj h
    refine Nat.lt_of_le_of_lt (htrim _) ?_
    split
    · next t =>
      split
      · next u hu =>
        have := (List.dropWhile_suffix (l := t) (· != ')')).length_le
        rw [hu] at this
        simp only [List.length_cons] at *
        omega
      · simp only [List.length_cons] at *; omega
    · simp only [List.length_cons]; omega
  · simp at h

/-- The text behind all annotations in front of it. -/
def dropAnnotations (s : List Char) : List Char :=
  match _h : dropAnnotation? s with
  | some t => dropAnnotations t
  | none => s
termination_by s.length
decreasing_by exact length_dropAnnotation? _h

/-- The text behind a modifier and its blanks, if it stands in front. -/
def dropModifier? (modifier : String) (s : List Char) : Option (List Char) :=
  (dropWord? modifier.toList s).bind dropBlanks?

/-- The text without a modifier in front. -/
def dropModifier (modifier : String) (s : List Char) : List Char :=
  (dropModifier? modifier s).getD s

/-- The texts on both sides of the `=` of a default, in a text at nesting `depth` behind `before`. -/
def splitDefault? (depth : Nat) (before : Option Char) : List Char →
    Option (List Char × List Char)
  | [] => none
  | c :: s =>
    if c = '=' && depth == 0 && before != some '=' && s.head? != some '=' && s.head? != some '>' then
      some ([], s)
    else (splitDefault? (depthAfter depth c) (some c) s).map fun r => (c :: r.1, r.2)

/-- The type and the name of a declaration `type name`. -/
def typeAndName? (s : List Char) : Option (List Char × List Char) :=
  let nameReversed := s.reverse.takeWhile (!isBlank ·)
  let typeReversed := (s.reverse.dropWhile (!isBlank ·)).dropWhile isBlank
  let name := nameReversed.reverse
  let type := typeReversed.reverse
  if identifier.accepts name && type.head?.any (!isBlank ·) && !type.contains '\n' then
    some (type, name)
  else none

/-- The parameter that a piece declares: `parse_parameter`. -/
def Piece.parameter? (p : Piece) : Option Parameter := do
  let text := dropAnnotations (trim p.text)
  let required := (dropModifier? "required" text).isSome
  let text := dropModifier "final" (dropModifier "covariant" (dropModifier "required" text))
  let (declared, value) := match splitDefault? 0 none text with
    | some (declared, value) => (trim declared, trim value)
    | none => (text, [])
  let (type, name) ← typeAndName? declared
  return {
    name := String.ofList name
    typeExpression := String.ofList type
    defaultValue := if value.isEmpty then none else some (String.ofList value)
    kind := .ofGroup required p.group }

/-- The parameters of a parameter list: `parse_parameter_list`. -/
def parameters (s : List Char) : List Parameter := (pieces s).filterMap Piece.parameter?

end DartUnion.Source
