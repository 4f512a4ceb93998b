import DartUnion.Output.Code
import DartUnion.Proofs.DistinctNames
import DartUnion.Proofs.ParameterReading
import DartUnion.Source.Union
import Mathlib.Data.List.Basic

/-!
# The names that generated code declares

What the generated code declares is read off its lines, without looking at the union that it was
generated for: classes and the extension stand at depth zero, and constructors, fields, getters and
methods at depth one, each behind or in front of fixed words. The check of a union compares its
names with each other, but not with the names that the generator adds itself.

* `nameBehind?`, `nameBefore?`: the identifier behind or in front of fixed text.
* `sections`: what lines open one behind the other, such as classes or methods.
* `topNames`, `constructorNames`, `caseClasses`, `typeParameters`: what lines declare.

Results:
* `topNames_code`, `constructorNames_code`, `caseClasses_code`, `mem_typeParameters_code`: **what
  generated code declares.**
* `distinct_code_iff`: **exactly when the declared names are distinct** for a union that the check
  lets pass.
-/

namespace DartUnion.Output

open DartUnion.Dart DartUnion.Source

/-! ## Reading names -/

/-- The identifier right behind `front` at the front of a text. -/
def nameBehind? (front text : String) : Option String :=
  (dropWord? front.toList text.toList).bind fun s =>
    (identifier.scan? s).map fun name => String.ofList name.1

/-- The identifier right in front of `back` at the end of a text. -/
def nameBefore? (back text : String) : Option String :=
  (dropWord? back.toList.reverse text.toList.reverse).map fun s =>
    String.ofList (s.takeWhile identifier.next).reverse

/-- The texts of the lines at a depth. -/
def textsAt (depth : Nat) (ls : List Line) : List String :=
  (ls.filter (·.depth == depth)).map Line.text

/-- The class or extension that a text declares. -/
def topName? (text : String) : Option String :=
  (nameBehind? "sealed class " text).or <|
    (nameBehind? "extension " text).or (nameBehind? "final class " text)

/-- The classes and extensions that lines declare. -/
def topNames (ls : List Line) : List String := (textsAt 0 ls).filterMap topName?

/-- The named constructor of the union that a text declares. -/
def constructorName? (union text : String) : Option String :=
  (nameBehind? ("const factory " ++ union ++ ".") text).or
    (nameBehind? ("factory " ++ union ++ ".") text)

/-- The named constructors of the union that lines declare. -/
def constructorNames (union : String) (ls : List Line) : List String :=
  (textsAt 1 ls).filterMap (constructorName? union)

/-- The field or getter that a text declares. -/
def memberName? (text : String) : Option String :=
  (nameBehind? "List<Object?> get " text).or <|
    if "final ".toList.isPrefixOf text.toList then nameBefore? ";" text else none

/-- The fields and getters that lines declare. -/
def memberNames (ls : List Line) : List String := (textsAt 1 ls).filterMap memberName?

/-- The class of a case that a line opens. -/
def className? (l : Line) : Option String :=
  if l.depth = 0 then nameBehind? "final class " l.text else none

/-- The line that closes a class. -/
def closing : Line := ⟨0, "\x7d"⟩

/-- What lines open, each read from what its first line says and from the lines behind it. -/
def sections {α β : Type} (opens? : Line → Option α) (read : α → List Line → β) :
    List Line → List β
  | [] => []
  | l :: ls =>
    match opens? l with
    | some a => read a ls :: sections opens? read ls
    | none => sections opens? read ls

/-- The classes of cases with their fields and getters. -/
def caseClasses : List Line → List (String × List String) :=
  sections className? fun name ls => (name, memberNames (ls.takeWhile (· ≠ closing)))

/-- The type parameters of methods. -/
def typeParameters (ls : List Line) : List String :=
  (textsAt 1 ls).filterMap (nameBefore? " extends Object?>(\x7b")

/-! ## Sections -/

section

variable {α β : Type} {opens? : Line → Option α} {read : α → List Line → β}

/-- A line that opens a section. -/
theorem sections_cons {l : Line} {a : α} (h : opens? l = some a) (ls : List Line) :
    sections opens? read (l :: ls) = read a ls :: sections opens? read ls := by
  rw [sections, h]

/-- Lines of which none opens a section hold none. -/
theorem sections_append {ls : List Line} (h : ∀ l ∈ ls, opens? l = none) (ms : List Line) :
    sections opens? read (ls ++ ms) = sections opens? read ms := by
  induction ls with
  | nil => rfl
  | cons l ls ih =>
    rw [List.cons_append, sections, h l List.mem_cons_self]
    exact ih fun m hm => h m (List.mem_cons_of_mem l hm)

end

/-! ## Names behind and in front of text -/

theorem nameBehind?_append {front name rest : String} (hn : identifier.accepts name.toList = true)
    (hr : ∀ c, rest.toList.head? = some c → identifier.next c = false) :
    nameBehind? front (front ++ (name ++ rest)) = some name := by
  unfold nameBehind?
  rw [String.toList_append, dropWord?_append, Option.bind_some, String.toList_append,
    scan?_name hn hr, Option.map_some, String.ofList_toList]

/-- A name between fixed text and a mark is read, whatever stands behind them. -/
theorem nameBehind?_mark {front name mark rest : String} {c : Char}
    (hn : identifier.accepts name.toList = true) (hm : mark.toList.head? = some c)
    (hc : identifier.next c = false) :
    nameBehind? front (front ++ name ++ mark ++ rest) = some name := by
  rw [String.append_assoc, String.append_assoc]
  refine nameBehind?_append hn fun e he => ?_
  rw [String.toList_append, List.head?_append, hm, Option.some_or] at he
  obtain rfl := Option.some.inj he
  exact hc

theorem nameBehind?_eq_none {front text : String}
    (h : front.toList.isPrefixOf text.toList = false) : nameBehind? front text = none := by
  unfold nameBehind? dropWord?
  rw [h]
  rfl

theorem nameBefore?_append {front name back : String} {c : Char}
    (hn : identifier.accepts name.toList = true) (hf : front.toList.getLast? = some c)
    (hc : identifier.next c = false) :
    nameBefore? back (front ++ (name ++ back)) = some name := by
  obtain ⟨s, hs⟩ := List.getLast?_eq_some_iff.1 hf
  have hall : ∀ d ∈ name.toList.reverse, identifier.next d = true :=
    fun d hd => next_of_accepts hn (List.mem_reverse.1 hd)
  unfold nameBefore?
  rw [String.toList_append, String.toList_append, List.reverse_append, List.reverse_append,
    List.append_assoc, dropWord?_append, Option.map_some, List.takeWhile_append_of_pos hall, hs,
    List.reverse_concat, List.takeWhile_cons_of_neg (by rw [hc]; exact Bool.false_ne_true),
    List.append_nil, List.reverse_reverse, String.ofList_toList]

/-- A name behind a type is read. -/
theorem nameBefore?_blank {type name back : String} (hn : identifier.accepts name.toList = true) :
    nameBefore? back (type ++ " " ++ name ++ back) = some name := by
  rw [String.append_assoc]
  refine nameBefore?_append hn (c := ' ') ?_ rfl
  rw [String.toList_append]
  exact List.getLast?_concat

theorem nameBefore?_eq_none {back text : String}
    (h : back.toList.reverse.isPrefixOf text.toList.reverse = false) :
    nameBefore? back text = none := by
  unfold nameBefore? dropWord?
  rw [h]
  rfl

theorem isPrefixOf_append (front rest : String) :
    front.toList.isPrefixOf (front ++ rest).toList = true := by
  rw [String.toList_append, List.isPrefixOf_iff_prefix]
  exact List.prefix_append _ _

/-! ## Texts at a depth -/

theorem textsAt_append (depth : Nat) (ls ms : List Line) :
    textsAt depth (ls ++ ms) = textsAt depth ls ++ textsAt depth ms := by
  rw [textsAt, List.filter_append, List.map_append]
  rfl

theorem textsAt_cons (depth : Nat) (l : Line) (ls : List Line) :
    textsAt depth (l :: ls) = if l.depth = depth then l.text :: textsAt depth ls
      else textsAt depth ls := by
  unfold textsAt
  rw [List.filter_cons]
  split
  · next h => rw [if_pos (beq_iff_eq.1 h), List.map_cons]
  · next h => rw [if_neg (fun he => h (beq_iff_eq.2 he))]

theorem mem_textsAt {l : Line} {ls : List Line} (h : l ∈ ls) : l.text ∈ textsAt l.depth ls :=
  List.mem_map_of_mem (List.mem_filter.2 ⟨h, beq_self_eq_true _⟩)

theorem textsAt_nil (depth : Nat) : textsAt depth [] = [] := rfl

/-- Lines made of texts at the same depth. -/
theorem textsAt_map {α : Type} (depth level : Nat) (f : α → String) (xs : List α) :
    textsAt depth (xs.map fun x => ⟨level, f x⟩) = if level = depth then xs.map f else [] := by
  induction xs with
  | nil => simp [textsAt_nil]
  | cons x xs ih =>
    rw [List.map_cons, textsAt_cons, ih]
    split
    · rfl
    · rfl

theorem textsAt_deeper (depth : Nat) (ls : List Line) :
    textsAt (depth + 1) (ls.map Line.deeper) = textsAt depth ls ∧
      textsAt 0 (ls.map Line.deeper) = [] := by
  induction ls with
  | nil => exact ⟨rfl, rfl⟩
  | cons l ls ih =>
    rw [List.map_cons, textsAt_cons, textsAt_cons, textsAt_cons, ih.1, ih.2]
    simp [Line.deeper]

/-- What stands between others stands between them at each depth. -/
theorem textsAt_intercalate (depth : Nat) (ls : List Line) (ms : List (List Line)) :
    textsAt depth (ls.intercalate ms) =
      (textsAt depth ls).intercalate (ms.map (textsAt depth)) := by
  induction ms with
  | nil => rfl
  | cons m ms ih =>
    cases ms with
    | nil => simp
    | cons n ms =>
      rw [List.intercalate_cons_cons, textsAt_append, textsAt_append, ih]
      simp only [List.map_cons, List.intercalate_cons_cons]

/-! ## The sections of generated code -/

section

variable (o : Options) (d : Declaration)

/-- The texts of a helper at the depth of methods: how it starts and how it ends. -/
def methodTexts (f : Family) : List String :=
  [f.returns ++ " " ++ f.name ++ "<Result extends Object?>(\x7b",
    if f.async then "\x7d) async \x7b" else "\x7d) \x7b", "\x7d"]

theorem textsAt_method (f : Family) (vs : List Variant) (binding : String) :
    textsAt 0 (f.method vs binding).lines = methodTexts f := by
  unfold Method.lines methodTexts
  simp only [textsAt_append, textsAt_cons, textsAt_nil, textsAt_map]
  rfl

theorem textsAt_helpers : textsAt 1 (helperLines d) = Family.all.flatMap methodTexts ∧
    textsAt 0 (helperLines d) = List.replicate 7 "" := by
  have hone : (textsAt 1 ∘ fun f : Family =>
      (f.method d.variants (bindingName d)).lines.map Line.deeper) = methodTexts := by
    funext f
    exact (textsAt_deeper 0 _).1.trans (textsAt_method f d.variants (bindingName d))
  have hzero : (textsAt 0 ∘ fun f : Family =>
      (f.method d.variants (bindingName d)).lines.map Line.deeper) = fun _ => [] := by
    funext f
    exact (textsAt_deeper 0 _).2
  unfold helperLines
  rw [textsAt_intercalate, textsAt_intercalate, List.map_map, List.map_map, hone, hzero]
  exact ⟨rfl, rfl⟩

theorem textsAt_lookUp : textsAt 1 (lookUpLines o d) =
    (if o.fromString then ["factory " ++ d.name ++ ".fromString(String value) \x7b", "\x7d"]
      else []) ∧ textsAt 0 (lookUpLines o d) = if o.fromString then [""] else [] := by
  unfold lookUpLines
  split
  · simp only [textsAt_append, textsAt_cons, textsAt_nil, textsAt_map]
    exact ⟨rfl, rfl⟩
  · exact ⟨rfl, rfl⟩

theorem textsAt_text : textsAt 1 (textLines d) = ["@override", "String toString() \x7b", "\x7d"] ∧
    textsAt 0 (textLines d) = [] := by
  unfold textLines
  simp only [textsAt_append, textsAt_cons, textsAt_nil, textsAt_map]
  exact ⟨rfl, rfl⟩

theorem textsAt_import : textsAt 1 (importLines o) = [] := by
  unfold importLines
  split
  · rfl
  · rfl

theorem textsAt_sealed : textsAt 1 (sealedLines o d) =
    ["const " ++ d.name ++ "();"] ++ d.variants.map (redirect d.name) ++
      textsAt 1 (lookUpLines o d) ++ textsAt 1 (textLines d) := by
  unfold sealedLines
  simp only [textsAt_append, textsAt_cons, textsAt_nil, textsAt_map]
  simp [Line.blank]

/-- The lines in front of the classes of the cases. -/
def unionLines : List Line := importLines o ++ sealedLines o d ++ [.blank] ++ extensionLines o d

theorem codeLines_eq_union : codeLines o d =
    unionLines o d ++ d.variants.flatMap fun v => .blank :: classLines d.name v := rfl

theorem textsAt_union :
    textsAt 1 (unionLines o d) = textsAt 1 (sealedLines o d) ++ textsAt 1 (helperLines d) ∧
    textsAt 0 (unionLines o d) = textsAt 0 (importLines o) ++
      ["sealed class " ++ d.name ++ " extends Equatable \x7b", ""] ++ textsAt 0 (lookUpLines o d) ++
      ["", "\x7d", "", "extension " ++ d.name ++ o.helperSuffix ++ " on " ++ d.name ++ " \x7b"] ++
      textsAt 0 (helperLines d) ++ ["\x7d"] := by
  constructor
  · unfold unionLines extensionLines
    simp only [textsAt_append, textsAt_cons, textsAt_nil, textsAt_import]
    simp [Line.blank]
  · unfold unionLines sealedLines extensionLines
    simp only [textsAt_append, textsAt_cons, textsAt_nil, textsAt_map, (textsAt_text d).2]
    simp [Line.blank]

end

/-! ## Classes of cases -/

/-- The lines of a class between the one that opens it and the one that closes it. -/
def bodyLines (v : Variant) : List Line :=
  (if v.isUnit then [⟨1, "const " ++ v.typeName ++ "();"⟩]
    else
      v.parameters.map (fun p => ⟨1, "final " ++ typed p ++ ";"⟩) ++
      [.blank,
        ⟨1, "const " ++ v.typeName ++ "(" ++ parameterList initialising v.parameters ++ ");"⟩]) ++
  [.blank,
    ⟨1, "@override"⟩,
    ⟨1, "List<Object?> get props => [" ++ commas (v.parameters.map Parameter.name) ++ "];"⟩]

theorem classLines_eq (union : String) (v : Variant) : classLines union v =
    ⟨0, "final class " ++ v.typeName ++ " extends " ++ union ++ " \x7b"⟩ ::
      (bodyLines v ++ [closing]) := by
  unfold classLines bodyLines closing
  simp only [List.append_assoc, List.cons_append, List.nil_append]

/-- What a class holds: fields, a constructor, and the list of its fields. -/
theorem textsAt_body (v : Variant) : ∃ inside, textsAt 1 (bodyLines v) =
      v.parameters.map (fun p => "final " ++ typed p ++ ";") ++
      ["const " ++ v.typeName ++ "(" ++ (inside ++ ");"), "@override",
        "List<Object?> get props => [" ++ commas (v.parameters.map Parameter.name) ++ "];"] ∧
    ∀ t ∈ textsAt 0 (bodyLines v), t = "" := by
  unfold bodyLines
  cases hunit : v.isUnit with
  | true =>
    refine ⟨"", ?_, ?_⟩
    · rw [List.isEmpty_iff.1 hunit, if_pos rfl]
      simp only [textsAt_append, textsAt_cons, textsAt_nil]
      simp [Line.blank, String.append_assoc]
    · simp only [if_true, textsAt_append, textsAt_cons, textsAt_nil]
      simp [Line.blank]
  | false =>
    refine ⟨parameterList initialising v.parameters, ?_, ?_⟩
    · simp only [Bool.false_eq_true, if_false, textsAt_append, textsAt_cons, textsAt_nil,
        textsAt_map]
      simp [Line.blank, String.append_assoc]
    · simp only [Bool.false_eq_true, if_false, textsAt_append, textsAt_cons, textsAt_nil,
        textsAt_map]
      simp [Line.blank]

/-! ## Texts with and without names -/

/-- Two names that different marks follow do not go on alike. -/
theorem isPrefixOf_eq_false_of_marks {word name front rest : List Char} {c d : Char}
    (hw : ∀ e ∈ word, identifier.next e = true) (hc : identifier.next c = false)
    (hn : ∀ e ∈ name, identifier.next e = true) (hd : identifier.next d = false) (hcd : c ≠ d) :
    (word ++ c :: front).isPrefixOf (name ++ d :: rest) = false := by
  rw [Bool.eq_false_iff]
  intro h
  obtain ⟨s, hs⟩ := List.isPrefixOf_iff_prefix.1 h
  have hdrop := congrArg (List.dropWhile identifier.next) hs
  rw [List.append_assoc, List.dropWhile_append_of_pos hw, List.dropWhile_append_of_pos hn,
    List.cons_append, List.dropWhile_cons_of_neg (by rw [hc]; exact Bool.false_ne_true),
    List.dropWhile_cons_of_neg (by rw [hd]; exact Bool.false_ne_true)] at hdrop
  exact hcd (List.cons.inj hdrop).1

section

variable {union name rest : String} (hn : identifier.accepts name.toList = true)

include hn

theorem topName?_sealed : topName? ("sealed class " ++ name ++ " extends Equatable \x7b") =
    some name := by
  rw [String.append_assoc, topName?, nameBehind?_append hn (fun c hc => ?_), Option.some_or]
  obtain rfl : ' ' = c := Option.some.inj hc
  rfl

theorem topName?_extension : topName? ("extension " ++ name ++ " on " ++ union ++ " \x7b") =
    some name := by
  have hother : nameBehind? "sealed class " ("extension " ++ name ++ " on " ++ union ++ " \x7b") =
      none := by
    refine nameBehind?_eq_none ?_
    simp only [String.toList_append]
    rfl
  rw [topName?, hother, Option.none_or, @String.append_assoc _ union,
    nameBehind?_mark hn (by rfl : " on ".toList.head? = some ' ') rfl, Option.some_or]

theorem nameBehind?_class : nameBehind? "final class " ("final class " ++ name ++ " extends " ++
    union ++ " \x7b") = some name := by
  rw [@String.append_assoc _ union]
  exact nameBehind?_mark hn (by rfl : " extends ".toList.head? = some ' ') rfl

theorem topName?_class : topName? ("final class " ++ name ++ " extends " ++ union ++ " \x7b") =
    some name := by
  have hother : nameBehind? "sealed class " ("final class " ++ name ++ " extends " ++ union ++
      " \x7b") = none ∧ nameBehind? "extension " ("final class " ++ name ++ " extends " ++ union ++
        " \x7b") = none := by
    constructor
    · refine nameBehind?_eq_none ?_
      simp only [String.toList_append]
      rfl
    · refine nameBehind?_eq_none ?_
      simp only [String.toList_append]
      rfl
  rw [topName?, hother.1, hother.2, nameBehind?_class hn]
  rfl

/-- A constructor without a name is not taken for a named one of the union. -/
theorem constructorName?_const :
    constructorName? union ("const " ++ name ++ "(" ++ rest) = none := by
  have hfactory : ("factory " ++ union ++ ".").toList =
      "factory".toList ++ ' ' :: (union ++ ".").toList := by
    simp only [String.toList_append, List.append_assoc]
    rfl
  have hmarks : ("factory " ++ union ++ ".").toList.isPrefixOf (name ++ ("(" ++ rest)).toList =
      false := by
    have hword : ∀ e ∈ "factory".toList, identifier.next e = true := by decide
    have htext : (name ++ ("(" ++ rest)).toList = name.toList ++ '(' :: rest.toList := by
      rw [String.toList_append, String.toList_append]
      rfl
    rw [hfactory, htext]
    exact isPrefixOf_eq_false_of_marks hword (by decide : identifier.next ' ' = false)
      (fun e he => next_of_accepts hn he) (by decide : identifier.next '(' = false) (by decide)
  have hconst : nameBehind? ("const factory " ++ union ++ ".") ("const " ++ name ++ "(" ++ rest) =
      none := by
    refine nameBehind?_eq_none ?_
    have hfront : ("const factory " ++ union ++ ".").toList =
        "const ".toList ++ ("factory " ++ union ++ ".").toList := by
      simp only [String.toList_append]
      rfl
    have htext : ("const " ++ name ++ "(" ++ rest).toList =
        "const ".toList ++ (name ++ ("(" ++ rest)).toList := by
      simp only [String.toList_append, List.append_assoc]
    rw [hfront, htext, Bool.eq_false_iff]
    intro h
    rw [List.isPrefixOf_iff_prefix, List.prefix_append_right_inj, ← List.isPrefixOf_iff_prefix,
      hmarks] at h
    cases h
  have hother : nameBehind? ("factory " ++ union ++ ".") ("const " ++ name ++ "(" ++ rest) =
      none := by
    refine nameBehind?_eq_none ?_
    simp only [String.toList_append]
    rfl
  rw [constructorName?, hconst, hother]
  rfl

theorem nameBehind?_redirect : nameBehind? ("const factory " ++ union ++ ".")
    ("const factory " ++ union ++ "." ++ name ++ "(" ++ rest) = some name :=
  nameBehind?_mark hn (by rfl : "(".toList.head? = some '(') rfl

theorem constructorName?_redirect : constructorName? union
    ("const factory " ++ union ++ "." ++ name ++ "(" ++ rest) = some name := by
  rw [constructorName?, nameBehind?_redirect hn, Option.some_or]

theorem memberName?_field {type : String} : memberName? ("final " ++ (type ++ " " ++ name) ++ ";") =
    some name := by
  have hother : nameBehind? "List<Object?> get " ("final " ++ (type ++ " " ++ name) ++ ";") =
      none := by
    refine nameBehind?_eq_none ?_
    simp only [String.toList_append]
    rfl
  have hsplit : "final " ++ (type ++ " " ++ name) ++ ";" =
      "final " ++ type ++ " " ++ name ++ ";" := by
    simp only [String.append_assoc]
  have hfinal : "final ".toList.isPrefixOf ("final " ++ (type ++ " " ++ name) ++ ";").toList =
      true := by
    rw [String.append_assoc]
    exact isPrefixOf_append _ _
  rw [memberName?, hother, hfinal, if_pos rfl, Option.none_or, hsplit]
  exact nameBefore?_blank hn

omit hn in
theorem memberName?_const : memberName? ("const " ++ rest) = none := by
  have hother : nameBehind? "List<Object?> get " ("const " ++ rest) = none := by
    refine nameBehind?_eq_none ?_
    rw [String.toList_append]
    rfl
  have hfinal : "final ".toList.isPrefixOf ("const " ++ rest).toList = false := by
    rw [String.toList_append]
    rfl
  rw [memberName?, hother, hfinal]
  rfl

end

theorem nameBehind?_of_head? {front text : String} {c : Char} (hf : front.toList.head? = some c)
    (ht : text.toList.head? ≠ some c) : nameBehind? front text = none := by
  refine nameBehind?_eq_none (Bool.eq_false_iff.2 fun h => ht ?_)
  obtain ⟨s, hs⟩ := List.isPrefixOf_iff_prefix.1 h
  rw [← hs, List.head?_append, hf]
  rfl

theorem nameBefore?_of_getLast? {back text : String} {c : Char} (hb : back.toList.getLast? = some c)
    (ht : text.toList.getLast? ≠ some c) : nameBefore? back text = none := by
  refine nameBefore?_eq_none (Bool.eq_false_iff.2 fun h => ht ?_)
  obtain ⟨s, hs⟩ := List.isPrefixOf_iff_prefix.1 h
  rw [← List.head?_reverse, ← hs, List.head?_append, List.head?_reverse, hb]
  rfl

/-- A constructor starts with `const` or with `factory`. -/
theorem constructorName?_of_head? {union text : String} (hc : text.toList.head? ≠ some 'c')
    (hf : text.toList.head? ≠ some 'f') : constructorName? union text = none := by
  rw [constructorName?, nameBehind?_of_head? _ hc, nameBehind?_of_head? _ hf]
  · rfl
  · simp only [String.toList_append]
    rfl
  · simp only [String.toList_append]
    rfl

theorem constructorName?_field {union type : String} :
    constructorName? union ("final " ++ type ++ ";") = none := by
  have hconst : nameBehind? ("const factory " ++ union ++ ".") ("final " ++ type ++ ";") =
      none := by
    refine nameBehind?_eq_none ?_
    simp only [String.toList_append]
    rfl
  have hfactory : nameBehind? ("factory " ++ union ++ ".") ("final " ++ type ++ ";") = none := by
    refine nameBehind?_eq_none ?_
    simp only [String.toList_append]
    rfl
  rw [constructorName?, hconst, hfactory]
  rfl

theorem constructorName?_fromString (union : String) : constructorName? union
    ("factory " ++ union ++ ".fromString(String value) \x7b") = some "fromString" := by
  have hconst : nameBehind? ("const factory " ++ union ++ ".")
      ("factory " ++ union ++ ".fromString(String value) \x7b") = none := by
    refine nameBehind?_eq_none ?_
    simp only [String.toList_append]
    rfl
  have hsplit : "factory " ++ union ++ ".fromString(String value) \x7b" =
      ("factory " ++ union ++ ".") ++ ("fromString" ++ "(String value) \x7b") := by
    simp only [String.append_assoc]
    rfl
  rw [constructorName?, hconst, Option.none_or, hsplit, nameBehind?_append (by decide)]
  intro c hc
  obtain rfl : '(' = c := Option.some.inj hc
  rfl

theorem memberName?_props (rest : String) :
    memberName? ("List<Object?> get props => [" ++ rest) = some "props" := by
  have hsplit : "List<Object?> get props => [" = "List<Object?> get " ++ "props" ++ " => [" := rfl
  rw [memberName?, hsplit,
    nameBehind?_mark (by decide) (by rfl : " => [".toList.head? = some ' ') rfl, Option.some_or]

/-- No method starts in a text that ends in a semicolon. -/
theorem typeParameter?_semicolon (text : String) :
    nameBefore? " extends Object?>(\x7b" (text ++ ";") = none := by
  refine nameBefore?_of_getLast? (c := '\x7b') (by decide) ?_
  rw [String.toList_append]
  exact fun h => absurd (List.getLast?_concat.symm.trans h) (by decide)

/-! ## What is declared -/

/-- All names of the declaration are identifiers. -/
structure HasIdentifiers (d : Declaration) : Prop where
  name : identifier.accepts d.name.toList = true
  typeNames : ∀ v ∈ d.variants, identifier.accepts v.typeName.toList = true
  labels : ∀ v ∈ d.variants, identifier.accepts v.label.toList = true
  parameters : ∀ v ∈ d.variants, ∀ p ∈ v.parameters, identifier.accepts p.name.toList = true

/-- What is read off the classes of the cases is read off each of them. -/
theorem filterMap_classes {α : Type} {f : String → Option α} (hblank : f "" = none) (union : String)
    (depth : Nat) {g : Variant → List α} {vs : List Variant}
    (h : ∀ v ∈ vs, (textsAt depth (classLines union v)).filterMap f = g v) :
    (textsAt depth (vs.flatMap fun v => .blank :: classLines union v)).filterMap f =
      vs.flatMap g := by
  induction vs with
  | nil => rfl
  | cons v vs ih =>
    have hrest := ih fun w hw => h w (List.mem_cons_of_mem v hw)
    have hline : (textsAt depth (.blank :: classLines union v)).filterMap f = g v := by
      rw [textsAt_cons]
      split
      · exact (List.filterMap_cons_none hblank).trans (h v List.mem_cons_self)
      · exact h v List.mem_cons_self
    rw [List.flatMap_cons, List.flatMap_cons, textsAt_append, List.filterMap_append, hline, hrest]

variable {o : Options} {d : Declaration} {v : Variant}

theorem accepts_append {s t : List Char} (hs : identifier.accepts s = true)
    (ht : ∀ c ∈ t, identifier.next c = true) : identifier.accepts (s ++ t) = true := by
  cases s with
  | nil => cases hs
  | cons c s =>
    simp only [NameClass.accepts, Bool.and_eq_true, List.all_eq_true] at hs
    simp only [List.cons_append, NameClass.accepts, Bool.and_eq_true, List.all_eq_true]
    refine ⟨hs.1, fun e he => ?_⟩
    rcases List.mem_append.1 he with he | he
    · exact hs.2 e he
    · exact ht e he

/-- The line that opens a class is the only one at its depth that declares anything. -/
theorem topNames_class (hv : identifier.accepts v.typeName.toList = true) (union : String) :
    topNames (classLines union v) = [v.typeName] := by
  obtain ⟨-, -, hempty⟩ := textsAt_body v
  have hbody : (textsAt 0 (bodyLines v)).filterMap topName? = [] := by
    rw [List.filterMap_eq_nil_iff]
    intro t ht
    rw [hempty t ht]
    decide
  unfold topNames
  rw [classLines_eq, textsAt_cons, if_pos rfl, List.filterMap_cons_some (topName?_class hv),
    textsAt_append, List.filterMap_append, hbody]
  rfl

/-- **The classes and the extension** of generated code. -/
theorem topNames_code (hd : HasIdentifiers d)
    (ho : ∀ c ∈ o.helperSuffix.toList, identifier.next c = true) : topNames (codeLines o d) =
      d.name :: (d.name ++ o.helperSuffix) :: d.variants.map Variant.typeName := by
  have hblank : topName? "" = none := by decide
  have himport : (textsAt 0 (importLines o)).filterMap topName? = [] := by
    unfold importLines
    split
    · decide
    · rfl
  have hlookUp : (textsAt 0 (lookUpLines o d)).filterMap topName? = [] := by
    rw [(textsAt_lookUp o d).2]
    split
    · decide
    · rfl
  have hsealed : ["sealed class " ++ d.name ++ " extends Equatable \x7b", ""].filterMap topName? =
      [d.name] := by
    rw [List.filterMap_cons_some (topName?_sealed hd.name), List.filterMap_cons_none hblank,
      List.filterMap_nil]
  have hextension : ["", "\x7d", "", "extension " ++ d.name ++ o.helperSuffix ++ " on " ++ d.name ++
      " \x7b"].filterMap topName? = [d.name ++ o.helperSuffix] := by
    have hname : identifier.accepts (d.name ++ o.helperSuffix).toList = true := by
      rw [String.toList_append]
      exact accepts_append hd.name ho
    have htext : "extension " ++ d.name ++ o.helperSuffix ++ " on " ++ d.name ++ " \x7b" =
        "extension " ++ (d.name ++ o.helperSuffix) ++ " on " ++ d.name ++ " \x7b" := by
      simp only [String.append_assoc]
    rw [htext, List.filterMap_cons_none hblank, List.filterMap_cons_none (by decide),
      List.filterMap_cons_none hblank, List.filterMap_cons_some (topName?_extension hname),
      List.filterMap_nil]
  have hhelpers : (List.replicate 7 "").filterMap topName? = [] := by decide
  have hclose : ["\x7d"].filterMap topName? = [] := by decide
  unfold topNames
  rw [codeLines_eq_union, textsAt_append, List.filterMap_append, (textsAt_union o d).2,
    filterMap_classes hblank d.name 0 fun v hv => topNames_class (hd.typeNames v hv) d.name]
  simp only [List.filterMap_append, himport, hlookUp, hsealed, hextension, (textsAt_helpers d).2,
    hhelpers, hclose, List.nil_append, List.append_nil, List.cons_append, ← List.map_eq_flatMap]

/-- Within a class of a case no constructor of the union is declared, and no method. -/
theorem texts_class (hv : identifier.accepts v.typeName.toList = true) (union : String) :
    constructorNames union (classLines union v) = [] ∧
      typeParameters (classLines union v) = [] := by
  obtain ⟨inside, hone, -⟩ := textsAt_body v
  have htexts : textsAt 1 (classLines union v) = textsAt 1 (bodyLines v) := by
    rw [classLines_eq, textsAt_cons, textsAt_append]
    exact List.append_nil _
  unfold constructorNames typeParameters
  rw [htexts, hone, List.filterMap_eq_nil_iff, List.filterMap_eq_nil_iff]
  refine ⟨fun t ht => ?_, fun t ht => ?_⟩
  · simp only [List.mem_append, List.mem_map, List.mem_cons, List.not_mem_nil, or_false] at ht
    rcases ht with ⟨p, -, rfl⟩ | rfl | rfl | rfl
    · exact constructorName?_field
    · exact constructorName?_const hv
    · exact constructorName?_of_head? (by decide) (by decide)
    · have hhead : ("List<Object?> get props => [" ++ commas (v.parameters.map Parameter.name) ++
          "];").toList.head? = some 'L' := by
        simp only [String.toList_append]
        rfl
      refine constructorName?_of_head? ?_ ?_
      · rw [hhead]
        decide
      · rw [hhead]
        decide
  · simp only [List.mem_append, List.mem_map, List.mem_cons, List.not_mem_nil, or_false] at ht
    rcases ht with ⟨p, -, rfl⟩ | rfl | rfl | rfl
    · exact typeParameter?_semicolon _
    · have hend : "const " ++ v.typeName ++ "(" ++ (inside ++ ");") =
          "const " ++ v.typeName ++ "(" ++ inside ++ ")" ++ ";" := by
        simp only [String.append_assoc]
        rfl
      rw [hend]
      exact typeParameter?_semicolon _
    · decide
    · have hend : "];" = "]" ++ ";" := rfl
      rw [hend, ← String.append_assoc]
      exact typeParameter?_semicolon _

/-- A redirecting factory: what stands in front of its parameters, and the rest. -/
theorem redirect_eq (union : String) (v : Variant) : redirect union v =
    "const factory " ++ union ++ "." ++ v.label ++ "(" ++
      (parameterList typed v.parameters ++ ") = " ++ v.typeName ++ ";") := by
  unfold redirect
  simp only [String.append_assoc]

/-- **The named constructors** of the union in generated code. -/
theorem constructorNames_code (hd : HasIdentifiers d) : constructorNames d.name (codeLines o d) =
    d.variants.map Variant.label ++ if o.fromString then ["fromString"] else [] := by
  have hothers : ∀ ts : List String,
      (∀ t ∈ ts, t.toList.head? ≠ some 'c' ∧ t.toList.head? ≠ some 'f') →
      ts.filterMap (constructorName? d.name) = [] := by
    intro ts hts
    rw [List.filterMap_eq_nil_iff]
    exact fun t ht => constructorName?_of_head? (hts t ht).1 (hts t ht).2
  have hconst : ["const " ++ d.name ++ "();"].filterMap (constructorName? d.name) = [] := by
    have hend : "();" = "(" ++ ");" := rfl
    rw [hend, ← String.append_assoc, List.filterMap_cons_none (constructorName?_const hd.name),
      List.filterMap_nil]
  have hredirects : (d.variants.map (redirect d.name)).filterMap (constructorName? d.name) =
      d.variants.map Variant.label := by
    rw [List.filterMap_map]
    refine List.filterMap_eq_map_iff_forall_eq_some.2 fun v hv => ?_
    rw [Function.comp_apply, redirect_eq]
    exact constructorName?_redirect (hd.labels v hv)
  have hlookUp : (textsAt 1 (lookUpLines o d)).filterMap (constructorName? d.name) =
      if o.fromString then ["fromString"] else [] := by
    rw [(textsAt_lookUp o d).1]
    split
    · rw [List.filterMap_cons_some (constructorName?_fromString d.name), hothers _ (by decide)]
    · rfl
  have hclasses := filterMap_classes (f := constructorName? d.name)
    (constructorName?_of_head? (by decide) (by decide)) d.name 1 fun v hv =>
      (texts_class (hd.typeNames v hv) d.name).1
  unfold constructorNames
  rw [codeLines_eq_union, textsAt_append, List.filterMap_append, (textsAt_union o d).1,
    textsAt_sealed, hclasses]
  simp only [List.filterMap_append, hconst, hredirects, hlookUp]
  rw [(textsAt_text d).1, (textsAt_helpers d).1, hothers _ (by decide),
    hothers _ (by decide +kernel)]
  simp

/-- No method of the sealed class has type parameters. -/
theorem typeParameter?_sealed : ∀ t ∈ textsAt 1 (sealedLines o d),
    nameBefore? " extends Object?>(\x7b" t = none := by
  intro t ht
  rw [textsAt_sealed] at ht
  simp only [List.mem_append, List.mem_singleton, List.mem_map] at ht
  rcases ht with ((rfl | ⟨v, -, rfl⟩) | ht) | ht
  · have hend : "();" = "()" ++ ";" := rfl
    rw [hend, ← String.append_assoc]
    exact typeParameter?_semicolon _
  · exact typeParameter?_semicolon _
  · have hfactory : nameBefore? " extends Object?>(\x7b"
        ("factory " ++ d.name ++ ".fromString(String value) \x7b") = none := by
      refine nameBefore?_eq_none ?_
      simp only [String.toList_append, List.reverse_append]
      rfl
    rw [(textsAt_lookUp o d).1] at ht
    split at ht
    · rcases List.mem_cons.1 ht with rfl | ht
      · exact hfactory
      · rw [List.mem_singleton.1 ht]
        decide
    · cases ht
  · have htext : ∀ t ∈ ["@override", "String toString() \x7b", "\x7d"],
        nameBefore? " extends Object?>(\x7b" t = none := by
      decide
    rw [(textsAt_text d).1] at ht
    exact htext t ht

/-- **The type parameters** of the methods in generated code. -/
theorem typeParameters_code (hd : HasIdentifiers d) :
    typeParameters (codeLines o d) = List.replicate 8 "Result" := by
  have hsealed : (textsAt 1 (sealedLines o d)).filterMap (nameBefore? " extends Object?>(\x7b") =
      [] :=
    List.filterMap_eq_nil_iff.2 typeParameter?_sealed
  have hhelpers : (textsAt 1 (helperLines d)).filterMap (nameBefore? " extends Object?>(\x7b") =
      List.replicate 8 "Result" := by
    rw [(textsAt_helpers d).1]
    decide +kernel
  have hclasses := filterMap_classes (f := nameBefore? " extends Object?>(\x7b") (by decide)
    d.name 1 fun v hv => (texts_class (hd.typeNames v hv) d.name).2
  unfold typeParameters
  rw [codeLines_eq_union, textsAt_append, List.filterMap_append, (textsAt_union o d).1,
    List.filterMap_append, hsealed, hhelpers, hclasses]
  simp

/-! ## Fields and getters -/

/-- A class of a case holds its fields and the list of them. -/
theorem memberNames_body (hv : ∀ p ∈ v.parameters, identifier.accepts p.name.toList = true) :
    memberNames (bodyLines v) = v.parameters.map Parameter.name ++ ["props"] := by
  obtain ⟨inside, hone, -⟩ := textsAt_body v
  have hfields : (v.parameters.map fun p => "final " ++ typed p ++ ";").filterMap memberName? =
      v.parameters.map Parameter.name := by
    rw [List.filterMap_map]
    exact List.filterMap_eq_map_iff_forall_eq_some.2 fun p hp => memberName?_field (hv p hp)
  have hconst : memberName? ("const " ++ v.typeName ++ "(" ++ (inside ++ ");")) = none := by
    rw [String.append_assoc, String.append_assoc]
    exact memberName?_const
  have hprops : memberName? ("List<Object?> get props => [" ++
      commas (v.parameters.map Parameter.name) ++ "];") = some "props" := by
    rw [String.append_assoc]
    exact memberName?_props _
  unfold memberNames
  rw [hone, List.filterMap_append, hfields, List.filterMap_cons_none hconst,
    List.filterMap_cons_none (by decide), List.filterMap_cons_some hprops, List.filterMap_nil]

theorem className?_eq_none {ls : List Line}
    (h : ∀ t ∈ textsAt 0 ls, nameBehind? "final class " t = none) :
    ∀ l ∈ ls, className? l = none := by
  intro l hl
  unfold className?
  split
  · next hdepth =>
    have hm := mem_textsAt hl
    rw [hdepth] at hm
    exact h l.text hm
  · rfl

/-- The class of a case is opened by its first line, and by no other. -/
theorem className?_opening (hv : identifier.accepts v.typeName.toList = true) (union : String) :
    className? ⟨0, "final class " ++ v.typeName ++ " extends " ++ union ++ " \x7b"⟩ =
      some v.typeName :=
  nameBehind?_class hv

theorem className?_body (v : Variant) : ∀ l ∈ bodyLines v ++ [closing], className? l = none := by
  obtain ⟨-, -, hempty⟩ := textsAt_body v
  refine className?_eq_none fun t ht => ?_
  rw [textsAt_append, List.mem_append] at ht
  rcases ht with ht | ht
  · rw [hempty t ht]
    decide
  · rw [List.mem_singleton.1 ht]
    decide

/-- The classes of lines that start with the class of a case. -/
theorem caseClasses_class (hv : identifier.accepts v.typeName.toList = true)
    (hp : ∀ p ∈ v.parameters, identifier.accepts p.name.toList = true) (union : String)
    (ms : List Line) : caseClasses (classLines union v ++ ms) =
      (v.typeName, v.parameters.map Parameter.name ++ ["props"]) :: caseClasses ms := by
  obtain ⟨-, -, hempty⟩ := textsAt_body v
  have hinside : ∀ l ∈ bodyLines v, decide (l ≠ closing) = true := by
    intro l hl
    rw [decide_eq_true_eq]
    rintro rfl
    exact absurd (hempty _ (mem_textsAt hl)) (by decide)
  have htake : (bodyLines v ++ [closing] ++ ms).takeWhile (fun l => decide (l ≠ closing)) =
      bodyLines v := by
    rw [List.append_assoc, List.takeWhile_append_of_pos hinside, List.singleton_append,
      List.takeWhile_cons_of_neg (by simp), List.append_nil]
  unfold caseClasses
  rw [classLines_eq, List.cons_append, sections_cons (className?_opening hv union), htake,
    memberNames_body hp, sections_append (className?_body v)]

theorem caseClasses_flatMap (union : String) {vs : List Variant}
    (hv : ∀ v ∈ vs, identifier.accepts v.typeName.toList = true)
    (hp : ∀ v ∈ vs, ∀ p ∈ v.parameters, identifier.accepts p.name.toList = true) :
    caseClasses (vs.flatMap fun v => .blank :: classLines union v) =
      vs.map fun v => (v.typeName, v.parameters.map Parameter.name ++ ["props"]) := by
  have hblank : ∀ l ∈ [Line.blank], className? l = none := by decide
  induction vs with
  | nil => rfl
  | cons v vs ih =>
    have hrest := ih (fun w hw => hv w (List.mem_cons_of_mem v hw))
      fun w hw => hp w (List.mem_cons_of_mem v hw)
    rw [List.flatMap_cons, List.cons_append, ← List.singleton_append, List.map_cons, ← hrest]
    exact (sections_append hblank _).trans
      (caseClasses_class (hv v List.mem_cons_self) (hp v List.mem_cons_self) union _)

/-- In front of the classes of the cases there is none. -/
theorem className?_union : ∀ l ∈ unionLines o d, className? l = none := by
  have hother : ∀ {t : String} {c : Char}, t.toList.head? = some c → c ≠ 'f' →
      nameBehind? "final class " t = none := by
    intro t c ht hc
    refine nameBehind?_of_head? (by decide : "final class ".toList.head? = some 'f') ?_
    rw [ht]
    exact fun h => hc (Option.some.inj h)
  have hempty : nameBehind? "final class " "" = none := by decide
  refine className?_eq_none fun t ht => ?_
  rw [(textsAt_union o d).2] at ht
  simp only [List.mem_append, List.mem_cons, List.not_mem_nil, or_false] at ht
  rcases ht with ((((ht | rfl | rfl) | ht) | rfl | rfl | rfl | rfl) | ht) | rfl
  · have himport : ∀ t ∈ textsAt 0 (importLines o), nameBehind? "final class " t = none := by
      unfold importLines
      split
      · decide
      · exact fun _ h => absurd h List.not_mem_nil
    exact himport t ht
  · refine hother (c := 's') ?_ (by decide)
    simp only [String.toList_append]
    rfl
  · exact hempty
  · have hlookUp : ∀ t ∈ textsAt 0 (lookUpLines o d), t = "" := by
      rw [(textsAt_lookUp o d).2]
      split
      · exact fun t h => List.mem_singleton.1 h
      · exact fun _ h => absurd h List.not_mem_nil
    rw [hlookUp t ht]
    exact hempty
  · exact hempty
  · decide
  · exact hempty
  · refine hother (c := 'e') ?_ (by decide)
    simp only [String.toList_append]
    rfl
  · rw [(textsAt_helpers d).2] at ht
    rw [List.eq_of_mem_replicate ht]
    exact hempty
  · decide

/-- **The classes of the cases** in generated code, each with its fields and getters. -/
theorem caseClasses_code (hd : HasIdentifiers d) : caseClasses (codeLines o d) =
    d.variants.map fun v => (v.typeName, v.parameters.map Parameter.name ++ ["props"]) := by
  rw [codeLines_eq_union]
  exact (sections_append className?_union _).trans
    (caseClasses_flatMap d.name hd.typeNames hd.parameters)

/-! ## Distinct names -/

theorem eq_append_iff {s t : String} : s = s ++ t ↔ t = "" := by
  rw [← String.toList_inj, ← String.toList_inj, String.toList_append]
  simp

/-- The classes and the extension are distinct unless a case is named like the union or like the
extension, or the extension is named like the union. -/
theorem nodup_topNames_iff (hc : d.check = .ok ()) (hd : HasIdentifiers d)
    (ho : ∀ c ∈ o.helperSuffix.toList, identifier.next c = true) :
    (topNames (codeLines o d)).Nodup ↔ o.helperSuffix ≠ "" ∧
      ∀ v ∈ d.variants, v.typeName ≠ d.name ∧ v.typeName ≠ d.name ++ o.helperSuffix := by
  have hdistinct := (check_eq_ok_iff_namesDistinct.1 hc).typeNames
  rw [topNames_code hd ho, List.nodup_cons, List.nodup_cons, List.mem_cons, not_or, eq_append_iff]
  constructor
  · rintro ⟨⟨hsuffix, hname⟩, hextension, -⟩
    refine ⟨hsuffix, fun v hv => ⟨?_, ?_⟩⟩
    · intro he
      exact hname (he ▸ List.mem_map_of_mem hv)
    · intro he
      exact hextension (he ▸ List.mem_map_of_mem hv)
  · rintro ⟨hsuffix, hcases⟩
    refine ⟨⟨hsuffix, fun hm => ?_⟩, fun hm => ?_, hdistinct⟩
    · obtain ⟨v, hv, he⟩ := List.mem_map.1 hm
      exact (hcases v hv).1 he
    · obtain ⟨v, hv, he⟩ := List.mem_map.1 hm
      exact (hcases v hv).2 he

/-- The named constructors are distinct unless a label is that of the look-up. -/
theorem nodup_constructorNames_iff (hc : d.check = .ok ()) (hd : HasIdentifiers d) :
    (constructorNames d.name (codeLines o d)).Nodup ↔
      (o.fromString = true → ∀ v ∈ d.variants, v.label ≠ "fromString") := by
  have hdistinct := (check_eq_ok_iff_namesDistinct.1 hc).labels
  rw [constructorNames_code hd]
  cases o.fromString with
  | false =>
    rw [if_neg Bool.false_ne_true, List.append_nil]
    exact iff_of_true hdistinct fun h => by cases h
  | true =>
    rw [if_pos rfl, List.nodup_append]
    constructor
    · rintro ⟨-, -, hne⟩ - v hv
      exact hne v.label (List.mem_map_of_mem hv) "fromString" List.mem_cons_self
    · intro h
      refine ⟨hdistinct, by simp, fun label hl other ho => ?_⟩
      obtain ⟨v, hv, rfl⟩ := List.mem_map.1 hl
      rw [List.mem_singleton.1 ho]
      exact h rfl v hv

/-- Fields and getters of a class are distinct unless a field is named like the list of them. -/
theorem nodup_members_iff (hc : d.check = .ok ()) (hd : HasIdentifiers d) :
    (∀ c ∈ caseClasses (codeLines o d), c.2.Nodup) ↔
      ∀ v ∈ d.variants, ∀ p ∈ v.parameters, p.name ≠ "props" := by
  have hdistinct := (check_eq_ok_iff_namesDistinct.1 hc).parameters
  rw [caseClasses_code hd, List.forall_mem_map]
  constructor
  · intro h v hv p hp
    obtain ⟨-, -, hne⟩ := List.nodup_append.1 (h v hv)
    exact hne p.name (List.mem_map_of_mem hp) "props" List.mem_cons_self
  · intro h v hv
    refine List.nodup_append.2 ⟨hdistinct v hv, by simp, fun name hn other ho => ?_⟩
    obtain ⟨p, hp, rfl⟩ := List.mem_map.1 hn
    rw [List.mem_singleton.1 ho]
    exact h v hv p hp

/-- No class of a case is named like a type parameter unless it is named `Result`. -/
theorem not_mem_typeParameters_iff (hd : HasIdentifiers d) :
    (∀ c ∈ caseClasses (codeLines o d), c.1 ∉ typeParameters (codeLines o d)) ↔
      ∀ v ∈ d.variants, v.typeName ≠ "Result" := by
  rw [caseClasses_code hd, typeParameters_code hd, List.forall_mem_map]
  constructor
  · intro h v hv he
    refine h v hv ?_
    rw [he]
    exact List.mem_cons_self
  · intro h v hv hm
    exact h v hv (List.eq_of_mem_replicate hm)

/-- **Exactly when the declared names are distinct**: code is generated for every union that has
cases and that the check lets pass, and its names are distinct where they stand beside each other as
long as no name of the union is one that the generator adds. -/
theorem distinct_code_iff (hne : d.variants ≠ []) (hc : d.check = .ok ()) (hd : HasIdentifiers d)
    (ho : ∀ c ∈ o.helperSuffix.toList, identifier.next c = true) :
    d.code o = .ok (render (codeLines o d)) ∧
    ((topNames (codeLines o d)).Nodup ↔ o.helperSuffix ≠ "" ∧
      ∀ v ∈ d.variants, v.typeName ≠ d.name ∧ v.typeName ≠ d.name ++ o.helperSuffix) ∧
    ((constructorNames d.name (codeLines o d)).Nodup ↔
      (o.fromString = true → ∀ v ∈ d.variants, v.label ≠ "fromString")) ∧
    ((∀ c ∈ caseClasses (codeLines o d), c.2.Nodup) ↔
      ∀ v ∈ d.variants, ∀ p ∈ v.parameters, p.name ≠ "props") ∧
    ((∀ c ∈ caseClasses (codeLines o d), c.1 ∉ typeParameters (codeLines o d)) ↔
      ∀ v ∈ d.variants, v.typeName ≠ "Result") := by
  refine ⟨?_, nodup_topNames_iff hc hd ho, nodup_constructorNames_iff hc hd,
    nodup_members_iff hc hd, not_mem_typeParameters_iff hd⟩
  unfold Declaration.code
  rw [List.isEmpty_eq_false_iff.2 hne, if_neg Bool.false_ne_true]

/-- A union of which no name is one that the generator adds, although `value` and `when` are among
them. -/
theorem distinct_code_iff_helper_names : ∃ d : Declaration,
    d = ⟨"Status", [⟨"Loading", "when", []⟩, ⟨"_Failure", "value", [⟨"message", "String", none,
      .positional⟩, ⟨"map", "Map<int, Result>", none, .named⟩]⟩]⟩ ∧
    (topNames (codeLines {} d)).Nodup ∧ (constructorNames d.name (codeLines {} d)).Nodup ∧
    (∀ c ∈ caseClasses (codeLines {} d), c.2.Nodup) ∧
    ∀ c ∈ caseClasses (codeLines {} d), c.1 ∉ typeParameters (codeLines {} d) := by
  obtain ⟨-, htop, hconstructors, hmembers, htypes⟩ := distinct_code_iff (o := {})
    (d := ⟨"Status", [⟨"Loading", "when", []⟩, ⟨"_Failure", "value", [⟨"message", "String", none,
      .positional⟩, ⟨"map", "Map<int, Result>", none, .named⟩]⟩]⟩) (by decide) rfl
    ⟨by decide, by decide, by decide, by decide⟩ (by decide)
  exact ⟨_, rfl, htop.2 (by decide), hconstructors.2 (by decide), hmembers.2 (by decide),
    htypes.2 (by decide)⟩

/-- **Accepted unions whose declared names clash**: a case named like the union; and a label, a
parameter and a case that are named like what the generator adds. -/
theorem code_declares_twice :
    (⟨"U", [⟨"U", "a", []⟩]⟩ : Declaration).check = .ok () ∧
    ¬ (topNames (codeLines {} ⟨"U", [⟨"U", "a", []⟩]⟩)).Nodup ∧
    ∃ d : Declaration,
      d = ⟨"U", [⟨"Result", "fromString", [⟨"props", "int", none, .positional⟩]⟩]⟩ ∧
      d.check = .ok () ∧ ¬ (constructorNames "U" (codeLines {} d)).Nodup ∧
      (¬ ∀ c ∈ caseClasses (codeLines {} d), c.2.Nodup) ∧
      ¬ ∀ c ∈ caseClasses (codeLines {} d), c.1 ∉ typeParameters (codeLines {} d) := by
  have hunion : HasIdentifiers ⟨"U", [⟨"U", "a", []⟩]⟩ :=
    ⟨by decide, by decide, by decide, by decide⟩
  have hcase : HasIdentifiers ⟨"U", [⟨"Result", "fromString", [⟨"props", "int", none,
      .positional⟩]⟩]⟩ := ⟨by decide, by decide, by decide, by decide⟩
  refine ⟨rfl, fun h => ?_, _, rfl, rfl, fun h => ?_, fun h => ?_, fun h => ?_⟩
  · exact absurd ((nodup_topNames_iff rfl hunion (by decide)).1 h) (by decide)
  · exact absurd ((nodup_constructorNames_iff rfl hcase).1 h) (by decide)
  · exact absurd ((nodup_members_iff rfl hcase).1 h) (by decide)
  · exact absurd ((not_mem_typeParameters_iff hcase).1 h) (by decide)

end DartUnion.Output
