/-!
# Names of Dart code

A class of names says which characters may start a name and which may follow. The four classes in
use are ASCII: identifiers (`FACTORY_LABEL`, `PARAM_SHAPE`), type names of cases (`CASE_LABEL`), names
of unions (`CLASS_NAME`) and names of annotations (`ANNOTATIONS`).

* `NameClass.scan?` takes the longest name at the front of a text.
* `scan?_eq_some`: what it takes is a name of the class, and nothing of the text is lost.
* `scan?_append`: a name is taken whole when what follows cannot go on with it.
-/

namespace DartUnion.Dart

/-- A class of names: the characters that may start one and those that may follow. -/
structure NameClass where
  start : Char → Bool
  next : Char → Bool

namespace NameClass

/-- The text is a name of the class. -/
def accepts (k : NameClass) : List Char → Bool
  | [] => false
  | c :: s => k.start c && s.all k.next

/-- The longest name at the front of the text, and the text behind it. -/
def scan? (k : NameClass) : List Char → Option (List Char × List Char)
  | [] => none
  | c :: s => if k.start c then some (c :: s.takeWhile k.next, s.dropWhile k.next) else none

/-- What is scanned is a name of the class, and with the rest it is the text. -/
theorem scan?_eq_some {k : NameClass} {s name rest : List Char}
    (h : k.scan? s = some (name, rest)) : k.accepts name = true ∧ name ++ rest = s := by
  cases s with
  | nil => simp [scan?] at h
  | cons c s =>
    simp only [scan?] at h
    split at h
    · next hc =>
      obtain ⟨rfl, rfl⟩ : c :: s.takeWhile k.next = name ∧ s.dropWhile k.next = rest := by
        simpa using h
      have hall : (s.takeWhile k.next).all k.next = true := by
        induction s with
        | nil => rfl
        | cons d s ih => cases hd : k.next d <;> simp_all
      exact ⟨by simp [accepts, hc, hall], by simp [List.takeWhile_append_dropWhile]⟩
    · simp at h

/-- A name is scanned whole when the text behind it cannot go on with it. -/
theorem scan?_append {k : NameClass} {name rest : List Char} (hn : k.accepts name = true)
    (hr : rest.head?.all (fun c => !k.next c) = true) :
    k.scan? (name ++ rest) = some (name, rest) := by
  cases name with
  | nil => simp [accepts] at hn
  | cons c s =>
    simp only [accepts, Bool.and_eq_true, List.all_eq_true] at hn
    have hrest : rest.takeWhile k.next = [] ∧ rest.dropWhile k.next = rest := by
      cases rest <;> simp_all
    simp [scan?, hn.1, List.takeWhile_append_of_pos hn.2, List.dropWhile_append_of_pos hn.2, hrest]

end NameClass

/-- Identifiers: labels, parameters, constructors. -/
def identifier : NameClass where
  start c := c.isAlpha || c == '_' || c == '$'
  next c := c.isAlphanum || c == '_' || c == '$'

/-- Type names of cases, which start with a capital or an underscore. -/
def caseName : NameClass where
  start c := c.isUpper || c == '_'
  next c := c.isAlphanum || c == '_'

/-- Names of unions: a capital, then letters and digits. -/
def unionName : NameClass where
  start c := c.isUpper
  next c := c.isAlphanum

/-- Names of annotations, which may be qualified. -/
def annotationName : NameClass where
  start c := c.isAlpha || c == '_'
  next c := c.isAlphanum || c == '_' || c == '.'

end DartUnion.Dart
