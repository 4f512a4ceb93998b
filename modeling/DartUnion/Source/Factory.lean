import DartUnion.Source.Parameter

/-!
# Redirecting factories

`variant_from_fragment` makes a variant of a fragment `factory Union.label(parameters) = Case;` when
both of its ends can be read: the head up to the opening bracket, and the redirection at the very end.
The redirection may be written `=` or `=>` and may have an empty pair of brackets behind the case. What
lies between is only looked at for parameters; when the opening bracket is never closed there are none.

* `redirectedCase?` (the pattern `CASE_LABEL`) and `head?` (the pattern `FACTORY_LABEL`) read the two
  ends.
* `beforeClosing?` (`outer_parens`) is the text up to the round bracket that closes the one already
  open, where only round brackets count.
* `variant?` is the variant of a fragment.
* `beforeClosing?_eq_some`: that text, the bracket and what follows are the whole text.
-/

namespace DartUnion.Source

open DartUnion.Text DartUnion.Dart

/-- The text behind `c` and the blanks in front of it. -/
def dropMark? (c : Char) (s : List Char) : Option (List Char) :=
  match trimStart s with
  | d :: t => if d = c then some t else none
  | [] => none

/-- The text behind an empty pair of brackets, if there is one. -/
def dropEmptyBrackets (s : List Char) : List Char :=
  ((dropMark? '(' s).bind (dropMark? ')')).getD s

/-- The case that a redirection names, the text being what follows its `=`. -/
def caseBehind? (s : List Char) : Option (List Char) := do
  let s := if s.head? = some '>' then s.tail else s
  let (name, s) ← caseName.scan? (trimStart s)
  let rest ← dropMark? ';' (dropEmptyBrackets s)
  if rest.isEmpty then some name else none

/-- The case at the end of a fragment, behind the first `=` that leads there. -/
def redirectedCase? : List Char → Option (List Char)
  | [] => none
  | c :: s =>
    match if c = '=' then caseBehind? s else none with
    | some name => some name
    | none => redirectedCase? s

/-- The label of a fragment and the text behind the opening bracket. -/
def head? (s : List Char) : Option (List Char × List Char) := do
  let s ← dropWord? "factory".toList s
  let s ← dropBlanks? s
  let (_, s) ← identifier.scan? s
  let s ← dropMark? '.' s
  let (label, s) ← identifier.scan? (trimStart s)
  let s ← dropMark? '(' s
  return (label, s)

/-- The text up to the round bracket that closes an open one, `inner` more being open inside. From
`inner = 0` on this is `outer_parens`. -/
def beforeClosing? (inner : Nat) : List Char → Option (List Char)
  | [] => none
  | c :: s =>
    if c = '(' then (beforeClosing? (inner + 1) s).map (c :: ·)
    else if c = ')' then
      match inner with
      | 0 => some []
      | inner + 1 => (beforeClosing? inner s).map (c :: ·)
    else (beforeClosing? inner s).map (c :: ·)

/-- The closing bracket stands right behind the text in front of it. -/
theorem beforeClosing?_eq_some {inner : Nat} {s t : List Char}
    (h : beforeClosing? inner s = some t) : ∃ rest, t ++ ')' :: rest = s := by
  induction s generalizing inner t with
  | nil => simp [beforeClosing?] at h
  | cons c s ih =>
    unfold beforeClosing? at h
    repeat' split at h
    · obtain ⟨u, hu, rfl⟩ := Option.map_eq_some_iff.1 h
      obtain ⟨rest, rfl⟩ := ih hu
      exact ⟨rest, rfl⟩
    · exact ⟨s, by simp_all⟩
    · obtain ⟨u, hu, rfl⟩ := Option.map_eq_some_iff.1 h
      obtain ⟨rest, rfl⟩ := ih hu
      exact ⟨rest, rfl⟩
    · obtain ⟨u, hu, rfl⟩ := Option.map_eq_some_iff.1 h
      obtain ⟨rest, rfl⟩ := ih hu
      exact ⟨rest, rfl⟩

/-- The variant that a fragment declares: `variant_from_fragment`. -/
def variant? (fragment : List Char) : Option Variant := do
  let fragment := trim fragment
  let case ← redirectedCase? fragment
  let (label, behind) ← head? fragment
  return {
    typeName := String.ofList case
    label := String.ofList label
    parameters := ((beforeClosing? 0 behind).map parameters).getD [] }

end DartUnion.Source
