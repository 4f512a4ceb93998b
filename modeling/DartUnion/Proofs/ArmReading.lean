import DartUnion.Output.Basic
import DartUnion.Proofs.ParameterReading
import Mathlib.Data.List.Basic

/-!
# Arms of switches, read off their text

An arm over the cases of a union names a type. The reader is told the type and the name that the arm
may bind, and says which of the two patterns stands in front of the arrow. A type may be any text, even
one that looks like a pattern; the two patterns are still told apart, because one of them has a bracket
right behind the type where the other has the type itself, a word further on.

* `behind?`, `before?`: what stands behind or in front of fixed text.
* `readPattern?`: whether a pattern over a type binds the value, and what stands behind the arrow.

Results:
* `append_ne_shifted`: a text with a mark behind it does not start like the text a word further on.
* `readPattern?_ofVariant`, `readPattern?_bind`: **the patterns of generated arms are read back.**
-/

namespace DartUnion.Output

open DartUnion.Source

/-! ## Fixed text -/

/-- What stands behind `front`. -/
def behind? (front text : String) : Option String :=
  (dropWord? front.toList text.toList).map String.ofList

/-- What stands in front of `back`. -/
def before? (back text : String) : Option String :=
  (dropWord? back.toList.reverse text.toList.reverse).map fun s => String.ofList s.reverse

theorem behind?_append (front text : String) : behind? front (front ++ text) = some text := by
  rw [behind?, String.toList_append, dropWord?_append, Option.map_some, String.ofList_toList]

theorem before?_append (text back : String) : before? back (text ++ back) = some text := by
  rw [before?, String.toList_append, List.reverse_append, dropWord?_append, Option.map_some,
    List.reverse_reverse, String.ofList_toList]

theorem eq_append_of_behind? {front text rest : String} (h : behind? front text = some rest) :
    text = front ++ rest := by
  obtain ⟨s, hs, rfl⟩ := Option.map_eq_some_iff.1 h
  rw [← String.toList_inj, String.toList_append, String.toList_ofList]
  exact eq_append_of_dropWord? hs

theorem eq_append_of_before? {back text rest : String} (h : before? back text = some rest) :
    text = rest ++ back := by
  obtain ⟨s, hs, rfl⟩ := Option.map_eq_some_iff.1 h
  have hreverse := congrArg List.reverse (eq_append_of_dropWord? hs)
  rw [List.reverse_append, List.reverse_reverse, List.reverse_reverse] at hreverse
  rw [← String.toList_inj, String.toList_append, String.toList_ofList]
  exact hreverse

theorem behind?_before? (front inside back : String) :
    (behind? front (front ++ inside ++ back)).bind (before? back) = some inside := by
  rw [String.append_assoc, behind?_append, Option.bind_some, before?_append]

theorem behind?_eq_none {front text : String} (h : ∀ s, text.toList ≠ front.toList ++ s) :
    behind? front text = none := by
  rw [behind?, Option.map_eq_none_iff, Option.eq_none_iff_forall_ne_some]
  exact fun s hs => h s (eq_append_of_dropWord? hs)

/-- Texts that start with different characters. -/
theorem behind?_eq_none_of_head? {front text : String} {c d : Char}
    (hf : front.toList.head? = some c) (ht : text.toList.head? = some d) (hne : c ≠ d) :
    behind? front text = none := by
  refine behind?_eq_none fun s he => hne ?_
  rw [he, List.head?_append, hf, Option.some_or] at ht
  exact Option.some.inj ht

/-- Texts that end differently. -/
theorem before?_eq_none {back text : String}
    (h : back.toList.reverse.isPrefixOf text.toList.reverse = false) : before? back text = none := by
  rw [before?, dropWord?, h]
  rfl

/-- A text with a mark behind it, perhaps after some more characters, does not start like the text a
word further on: it would hold the mark once more than it does. -/
theorem append_ne_shifted {text word near front back : List Char} {mark : Char} (hm : mark ∉ word)
    (hn : near.length < word.length) :
    text ++ (near ++ mark :: front) ≠ word ++ (text ++ back) := by
  intro he
  have hnear : text ++ (near ++ [mark]) <+: word ++ (text ++ back) := by
    rw [← he]
    exact ⟨front, by simp⟩
  have hword : word ++ text <+: word ++ (text ++ back) := ⟨back, by simp⟩
  have hlength : (text ++ (near ++ [mark])).length ≤ (word ++ text).length := by
    simp only [List.length_append, List.length_cons, List.length_nil]
    omega
  have hlong := List.prefix_of_prefix_length_le hnear hword hlength
  have hcount := hlong.sublist.count_le mark
  simp only [List.count_append, List.count_cons_self, List.count_nil,
    List.count_eq_zero_of_not_mem hm] at hcount
  omega

/-! ## Patterns -/

/-- Whether the pattern of an arm over a type binds the value to the name, and what stands behind the
arrow. -/
def readPattern? (type name text : String) : Option (Bool × String) :=
  ((behind? (type ++ "() => ") text).map fun body => (false, body)).or
    ((behind? ("final " ++ type ++ " " ++ name ++ " => ") text).map fun body => (true, body))

theorem readPattern?_object (type name body : String) :
    readPattern? type name ((Pattern.object type).text ++ " => " ++ body) = some (false, body) := by
  have htext : (Pattern.object type).text ++ " => " ++ body = type ++ "() => " ++ body := by
    have hmark : "()" ++ " => " = "() => " := rfl
    rw [Pattern.text, @String.append_assoc type, hmark]
  rw [readPattern?, htext, behind?_append, Option.map_some, Option.some_or]

theorem readPattern?_bind (type name body : String) :
    readPattern? type name ((Pattern.bind type name).text ++ " => " ++ body) =
      some (true, body) := by
  have hobject : behind? (type ++ "() => ") ((Pattern.bind type name).text ++ " => " ++ body) =
      none := by
    refine behind?_eq_none fun s he => ?_
    simp only [Pattern.text, String.toList_append, List.append_assoc] at he
    have hbracket : '(' ∉ "final ".toList := by decide
    have hnear : ([] : List Char).length < "final ".toList.length := by decide
    exact append_ne_shifted hbracket hnear he.symm
  rw [readPattern?, hobject, Option.map_none, Option.none_or, Pattern.text, behind?_append,
    Option.map_some]

/-- **The pattern of a case** binds it when the case has parameters. -/
theorem readPattern?_ofVariant (v : Variant) (binding body : String) :
    readPattern? v.typeName binding ((Pattern.ofVariant v binding).text ++ " => " ++ body) =
      some (!v.isUnit, body) := by
  unfold Pattern.ofVariant
  cases hunit : v.isUnit with
  | true => exact readPattern?_object v.typeName binding body
  | false => exact readPattern?_bind v.typeName binding body

end DartUnion.Output
