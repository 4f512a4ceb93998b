import DartUnion.Proofs.CodeLines
import DartUnion.Proofs.DeclaredNames

/-!
# The cases that each part of generated code covers

The classes, the factories, the text form and the eight helpers each come from a walk over the cases
of their own. A `switch` must have an arm for every class that extends the union, and a helper a
handler for every arm. So each of the lists is read off the lines of the code, without looking at the
union that it was generated for, and all of them are the list of the cases.

* `openedCases`: the classes that extend the union.
* `redirections`: the labels and the targets of the factories that redirect.
* `armType?`: the type of which an arm takes every value.
* `textCases?`, `helpers`: the cases of the text form, and those of each helper with its handlers.

Results:
* `openedCases_code`, `redirections_code`, `textCases?_code`, `helpers_code`: what the lines cover.
* `readLines_code_covers`: **every list read off the generated text names the same cases, in order
  and each of them once.**
-/

namespace DartUnion.Output

open DartUnion.Dart DartUnion.Source

/-! ## Reading cases -/

/-- The class extending the union that a line opens. -/
def openedCase? (union : String) (l : Line) : Option String :=
  (className? l).filter fun name =>
    l.text == "final class " ++ name ++ " extends " ++ union ++ " \x7b"

/-- The classes extending the union that lines open. -/
def openedCases (union : String) (ls : List Line) : List String := ls.filterMap (openedCase? union)

/-- The label and the target of the redirecting factory that a text declares. -/
def redirection? (union text : String) : Option (String × String) :=
  (nameBehind? ("const factory " ++ union ++ ".") text).bind fun label =>
    (nameBefore? ";" text).map fun target => (label, target)

/-- The labels and the targets of the redirecting factories that lines declare. -/
def redirections (union : String) (ls : List Line) : List (String × String) :=
  (textsAt 1 ls).filterMap (redirection? union)

/-- The type of which an arm takes every value: its pattern binds the value or nothing, and there is
no condition between the pattern and the arrow. -/
def armType? (text : String) : Option String :=
  ((nameBehind? "final " text).filter fun type =>
    (nameBehind? ("final " ++ type ++ " ") text).any fun name =>
      ("final " ++ type ++ " " ++ name ++ " => ").toList.isPrefixOf text.toList).or <|
  (nameBehind? "" text).filter fun type => (type ++ "() => ").toList.isPrefixOf text.toList

/-- The lines in front of the first one like `l`. -/
def linesBefore (l : Line) (ls : List Line) : List Line := ls.takeWhile (· ≠ l)

/-- The lines behind the first one like `l`. -/
def linesBehind (l : Line) (ls : List Line) : List Line := (ls.dropWhile (· ≠ l)).tail

/-- The line that opens a `switch` over the union. -/
def switchOpening : Line := ⟨2, "return switch (this) \x7b"⟩

/-- The line that closes a `switch`. -/
def switchClosing : Line := ⟨2, "\x7d;"⟩

/-- The line that opens the text form. -/
def textOpening : Line := ⟨1, "String toString() \x7b"⟩

/-- The line that closes a method. -/
def methodClosing : Line := ⟨1, "\x7d"⟩

/-- The types that the `switch` of a method takes, if each arm takes one as a whole. The lines start
behind the one that opens the method. -/
def switchCases? (ls : List Line) : Option (List String) :=
  ((linesBefore switchClosing (linesBehind switchOpening (linesBefore methodClosing ls))).map
    Line.text).mapM armType?

/-- The types that the text form takes. -/
def textCases? (ls : List Line) : Option (List String) := switchCases? (linesBehind textOpening ls)

/-- A helper, with the names of its handlers and the types that its `switch` takes. -/
structure Helper where
  name : String
  handlers : Option (List String)
  cases : Option (List String)
  deriving Repr, DecidableEq

/-- The helper that a line opens. -/
def helperName? (l : Line) : Option String :=
  if l.depth = 1 then nameBefore? "<Result extends Object?>(\x7b" l.text else none

/-- The names of the handlers of a helper. The lines start behind the one that opens it. -/
def handlerNames? (ls : List Line) : Option (List String) :=
  ((ls.takeWhile (·.depth == 2)).map Line.text).mapM (nameBefore? ",")

/-- The helpers that lines declare. -/
def helpers : List Line → List Helper :=
  sections helperName? fun name ls => ⟨name, handlerNames? ls, switchCases? ls⟩

/-! ## Lines before and behind others -/

section

variable {l : Line} {ls ms : List Line}

theorem ne_of_not_mem (h : l ∉ ls) : ∀ m ∈ ls, decide (m ≠ l) = true := by
  intro m hm
  rw [decide_eq_true_eq]
  rintro rfl
  exact h hm

theorem linesBefore_append (h : l ∉ ls) : linesBefore l (ls ++ l :: ms) = ls := by
  rw [linesBefore, List.takeWhile_append_of_pos (ne_of_not_mem h),
    List.takeWhile_cons_of_neg (by simp), List.append_nil]

theorem linesBehind_append (h : l ∉ ls) : linesBehind l (ls ++ l :: ms) = ms := by
  rw [linesBehind, List.dropWhile_append_of_pos (ne_of_not_mem h),
    List.dropWhile_cons_of_neg (by simp), List.tail_cons]

theorem not_mem_of_textsAt (h : l.text ∉ textsAt l.depth ls) : l ∉ ls :=
  fun hm => h (mem_textsAt hm)

end

theorem mapM_eq_some_map {α β γ : Type} {f : β → Option γ} {g : α → β} {k : α → γ} {xs : List α}
    (h : ∀ x ∈ xs, f (g x) = some (k x)) : (xs.map g).mapM f = some (xs.map k) := by
  induction xs with
  | nil => rfl
  | cons x xs ih =>
    rw [List.map_cons, List.mapM_cons, h x List.mem_cons_self,
      ih fun y hy => h y (List.mem_cons_of_mem x hy)]
    rfl

theorem map_text (depth : Nat) (ts : List String) :
    (ts.map fun t => (⟨depth, t⟩ : Line)).map Line.text = ts := by
  rw [List.map_map]
  exact List.map_id ts

/-- The cases of a method are those of its arms. -/
theorem switchCases?_arms {front rest : List Line} {arms names : List String}
    (hm : methodClosing ∉ front) (hs : switchOpening ∉ front)
    (harms : arms.mapM armType? = some names) :
    switchCases? (front ++ switchOpening :: (arms.map (fun t => ⟨3, t⟩) ++
      switchClosing :: methodClosing :: rest)) = some names := by
  have hdepth : ∀ l : Line, l.depth ≠ 3 → l ∉ arms.map fun t => (⟨3, t⟩ : Line) := by
    intro l hl hmem
    obtain ⟨t, -, rfl⟩ := List.mem_map.1 hmem
    exact hl rfl
  have hbody : methodClosing ∉ front ++ switchOpening :: (arms.map (fun t => ⟨3, t⟩) ++
      [switchClosing]) := by
    simp only [List.mem_append, List.mem_cons, List.not_mem_nil, or_false, not_or]
    exact ⟨hm, by decide, hdepth _ (by decide), by decide⟩
  have hlines : front ++ switchOpening :: (arms.map (fun t => ⟨3, t⟩) ++
      switchClosing :: methodClosing :: rest) =
      (front ++ switchOpening :: (arms.map (fun t => ⟨3, t⟩) ++ [switchClosing])) ++
        methodClosing :: rest := by
    simp
  rw [switchCases?, hlines, linesBefore_append hbody, linesBehind_append hs,
    linesBefore_append (hdepth _ (by decide)), map_text, harms]

/-! ## Arms -/

section

variable {name binding rest : String} (hn : identifier.accepts name.toList = true)

include hn

theorem armType?_object : armType? (name ++ "()" ++ " => " ++ rest) = some name := by
  have htext : name ++ "()" ++ " => " ++ rest = name ++ "() => " ++ rest := by
    have hmark : "()" ++ " => " = "() => " := rfl
    rw [@String.append_assoc name, hmark]
  have hfinal : nameBehind? "final " (name ++ "() => " ++ rest) = none := by
    refine nameBehind?_eq_none ?_
    have hword : ∀ e ∈ "final".toList, identifier.next e = true := by decide
    rw [String.append_assoc, String.toList_append, String.toList_append]
    exact isPrefixOf_eq_false_of_marks hword (by decide : identifier.next ' ' = false)
      (fun e he => next_of_accepts hn he) (by decide : identifier.next '(' = false) (by decide)
  have hname : nameBehind? "" (name ++ "() => " ++ rest) = some name := by
    have := @nameBehind?_mark "" name "() => " rest '(' hn rfl rfl
    rwa [String.empty_append] at this
  rw [htext, armType?, hfinal, hname, Option.filter_none, Option.none_or, Option.filter_some,
    if_pos (isPrefixOf_append _ rest)]

theorem armType?_bind (hb : identifier.accepts binding.toList = true) :
    armType? ("final " ++ name ++ " " ++ binding ++ " => " ++ rest) = some name := by
  have hname : nameBehind? "final " ("final " ++ name ++ " " ++ binding ++ " => " ++ rest) =
      some name := by
    have := @nameBehind?_mark "final " name " " (binding ++ (" => " ++ rest)) ' ' hn rfl rfl
    simpa only [String.append_assoc] using this
  have hbinding : nameBehind? ("final " ++ name ++ " ")
      ("final " ++ name ++ " " ++ binding ++ " => " ++ rest) = some binding :=
    nameBehind?_mark hb (by rfl : " => ".toList.head? = some ' ') rfl
  rw [armType?, hname, Option.filter_some, hbinding, Option.any_some,
    if_pos (isPrefixOf_append _ rest), Option.some_or]

end

section

variable {v : Variant} (hv : identifier.accepts v.typeName.toList = true) {binding : String}
  (hb : identifier.accepts binding.toList = true)

include hv hb

/-- Whatever an arm does, its pattern takes the case as a whole. -/
theorem armType?_ofVariant (body : String) :
    armType? (Arm.mk (.ofVariant v binding) body).text = some v.typeName := by
  unfold Arm.text Pattern.ofVariant
  rw [String.append_assoc]
  split
  · exact armType?_object hv
  · exact armType?_bind hv hb

theorem armType?_helper (f : Family) :
    armType? (Arm.mk (f.arm binding v).1 (f.arm binding v).2.text).text = some v.typeName := by
  unfold Family.arm
  cases f.receives with
  | fields => exact armType?_ofVariant hv hb _
  | case =>
    unfold Arm.text
    rw [String.append_assoc]
    exact armType?_bind hv hb

end

/-- The name that a case is bound to is an identifier. -/
theorem accepts_freeName {name : String} (h : identifier.accepts name.toList = true)
    (labels : List String) (spare : Nat) :
    identifier.accepts (freeName labels name spare).toList = true := by
  induction spare generalizing name with
  | zero => exact h
  | succ spare ih =>
    rw [freeName]
    split
    · refine ih ?_
      rw [String.toList_append]
      exact accepts_append h (by decide)
    · exact h

theorem accepts_helperName (f : Family) : identifier.accepts f.name.toList = true := by
  obtain ⟨receives, absence, async⟩ := f
  cases receives <;> cases absence <;> cases async <;> decide

/-! ## Handlers -/

/-- The texts of the handlers of a helper. -/
def handlerTexts (f : Family) (vs : List Variant) (binding : String) : List String :=
  ((if f.absence = .orElse then some (answerType f.async) else none).toList.map fun t =>
    "required " ++ t ++ " Function() orElse,") ++ vs.map fun v => (f.handler binding v).text

/-- The names of the handlers of a helper. -/
def Family.handlerNames (f : Family) (vs : List Variant) : List String :=
  (if f.absence = .orElse then ["orElse"] else []) ++ vs.map Variant.label

/-- No case has the label of what steps in for a missing handler. -/
theorem nodup_handlerNames {d : Declaration} (hd : d.NamesDistinct) (f : Family) :
    (f.handlerNames d.variants).Nodup := by
  unfold Family.handlerNames
  split
  · refine List.nodup_cons.2 ⟨fun hm => ?_, hd.labels⟩
    obtain ⟨v, hv, he⟩ := List.mem_map.1 hm
    exact hd.reserved v hv he
  · exact hd.labels

theorem handlerTexts_read {vs : List Variant}
    (hl : ∀ v ∈ vs, identifier.accepts v.label.toList = true) (f : Family) (binding : String) :
    (handlerTexts f vs binding).mapM (nameBefore? ",") = some (f.handlerNames vs) := by
  have hhandlers : (vs.map fun v => (f.handler binding v).text).mapM (nameBefore? ",") =
      some (vs.map Variant.label) :=
    mapM_eq_some_map fun v hv => nameBefore?_blank (hl v hv)
  unfold handlerTexts Family.handlerNames
  rw [List.mapM_append, hhandlers]
  split
  · cases f.async <;> rfl
  · rfl

/-! ## Methods -/

/-- The texts of the arms of a helper. -/
def armTexts (f : Family) (vs : List Variant) (binding : String) : List String :=
  vs.map fun v => (Arm.mk (f.arm binding v).1 (f.arm binding v).2.text).text

/-- The line that closes the handlers of a helper. -/
def handlersClosing (f : Family) : Line := ⟨1, if f.async then "\x7d) async \x7b" else "\x7d) \x7b"⟩

/-- The lines of a helper behind the one that opens it, up to its `switch`. -/
def handlerLines (f : Family) (vs : List Variant) (binding : String) : List Line :=
  (handlerTexts f vs binding).map (fun t => ⟨2, t⟩) ++ [handlersClosing f]

theorem method_deeper (f : Family) (vs : List Variant) (binding : String) :
    (f.method vs binding).lines.map Line.deeper =
      ⟨1, f.returns ++ " " ++ f.name ++ "<Result extends Object?>(\x7b"⟩ ::
        (handlerLines f vs binding ++ switchOpening ::
          ((armTexts f vs binding).map (fun t => ⟨3, t⟩) ++ [switchClosing, methodClosing])) := by
  unfold Method.lines Family.method handlerLines handlerTexts armTexts
  simp only [List.map_append, List.map_cons, List.map_nil, List.map_map, List.append_assoc,
    List.cons_append, List.nil_append]
  rfl

/-- Handlers close no method and open no `switch`. -/
theorem not_mem_handlerLines (f : Family) (vs : List Variant) (binding : String) :
    methodClosing ∉ handlerLines f vs binding ∧ switchOpening ∉ handlerLines f vs binding := by
  have hcomma : ∀ t ∈ handlerTexts f vs binding, t.toList.getLast? = some ',' := by
    intro t ht
    rcases List.mem_append.1 ht with ht | ht
    · obtain ⟨s, -, rfl⟩ := List.mem_map.1 ht
      rw [String.toList_append]
      exact List.getLast?_append_of_ne_nil _ (by decide)
    · obtain ⟨v, -, rfl⟩ := List.mem_map.1 ht
      rw [Handler.text, String.toList_append]
      exact List.getLast?_concat
  have hclosing : methodClosing ≠ handlersClosing f ∧ switchOpening ≠ handlersClosing f := by
    unfold handlersClosing
    cases f.async <;> decide
  constructor
  · intro hm
    rcases List.mem_append.1 hm with hm | hm
    · obtain ⟨t, -, he⟩ := List.mem_map.1 hm
      cases he
    · exact hclosing.1 (List.mem_singleton.1 hm)
  · intro hm
    rcases List.mem_append.1 hm with hm | hm
    · obtain ⟨t, ht, he⟩ := List.mem_map.1 hm
      obtain rfl : t = "return switch (this) \x7b" := congrArg Line.text he
      cases hcomma _ ht
    · exact hclosing.2 (List.mem_singleton.1 hm)

theorem helperName?_eq_none {ls : List Line}
    (h : ∀ t ∈ textsAt 1 ls, nameBefore? "<Result extends Object?>(\x7b" t = none) :
    ∀ l ∈ ls, helperName? l = none := by
  intro l hl
  unfold helperName?
  split
  · next hdepth =>
    have hm := mem_textsAt hl
    rw [hdepth] at hm
    exact h l.text hm
  · rfl

/-- A helper has a type parameter. -/
theorem helperName?_of_typeParameter? {ls : List Line}
    (h : ∀ t ∈ textsAt 1 ls, nameBefore? " extends Object?>(\x7b" t = none) :
    ∀ l ∈ ls, helperName? l = none := by
  refine helperName?_eq_none fun t ht => nameBefore?_eq_none (Bool.eq_false_iff.2 fun hp => ?_)
  obtain ⟨s, hs⟩ := List.isPrefixOf_iff_prefix.1 hp
  have hback : "<Result extends Object?>(\x7b".toList.reverse =
      " extends Object?>(\x7b".toList.reverse ++ "<Result".toList.reverse := by
    decide
  have hnone := h t ht
  rw [nameBefore?, ← hs, hback, List.append_assoc, dropWord?_append] at hnone
  cases hnone

/-- The handlers are read up to the line that closes them. -/
theorem handlerNames?_handlerLines {vs : List Variant}
    (hl : ∀ v ∈ vs, identifier.accepts v.label.toList = true) (f : Family) (binding : String)
    (rest : List Line) :
    handlerNames? (handlerLines f vs binding ++ rest) = some (f.handlerNames vs) := by
  have hdepth : ∀ l ∈ (handlerTexts f vs binding).map (fun t => (⟨2, t⟩ : Line)),
      (l.depth == 2) = true := by
    intro l hl
    obtain ⟨t, -, rfl⟩ := List.mem_map.1 hl
    rfl
  rw [handlerNames?, handlerLines, List.append_assoc, List.takeWhile_append_of_pos hdepth,
    List.singleton_append, List.takeWhile_cons_of_neg Bool.false_ne_true, List.append_nil,
    map_text, handlerTexts_read hl]

/-- Only the first line of a helper opens one. -/
theorem helperName?_behind (f : Family) (vs : List Variant) (binding : String) :
    ∀ l ∈ handlerLines f vs binding ++ switchOpening ::
      ((armTexts f vs binding).map (fun t => ⟨3, t⟩) ++ [switchClosing, methodClosing]),
      helperName? l = none := by
  have htexts := (textsAt_deeper 0 (f.method vs binding).lines).1.trans
    (textsAt_method f vs binding)
  rw [method_deeper, textsAt_cons, if_pos rfl] at htexts
  refine helperName?_eq_none fun t ht => ?_
  rw [(List.cons.inj htexts).2] at ht
  rcases List.mem_cons.1 ht with rfl | ht
  · split <;> decide
  · rw [List.mem_singleton.1 ht]
    decide

/-- A helper and what is declared behind it. -/
theorem helpers_method {vs : List Variant}
    (ht : ∀ v ∈ vs, identifier.accepts v.typeName.toList = true)
    (hl : ∀ v ∈ vs, identifier.accepts v.label.toList = true) {binding : String}
    (hb : identifier.accepts binding.toList = true) (f : Family) (ms : List Line) :
    helpers ((f.method vs binding).lines.map Line.deeper ++ ms) =
      ⟨f.name, some (f.handlerNames vs), some (vs.map Variant.typeName)⟩ :: helpers ms := by
  obtain ⟨hmethod, hswitch⟩ := not_mem_handlerLines f vs binding
  have hname : helperName? ⟨1, f.returns ++ " " ++ f.name ++ "<Result extends Object?>(\x7b"⟩ =
      some f.name := nameBefore?_blank (accepts_helperName f)
  have harms : (armTexts f vs binding).mapM armType? = some (vs.map Variant.typeName) :=
    mapM_eq_some_map fun v hv => armType?_helper (ht v hv) hb f
  have hbehind : helpers (_ ++ ms) = helpers ms :=
    sections_append (helperName?_behind f vs binding) ms
  have hlines : (f.method vs binding).lines.map Line.deeper ++ ms =
      ⟨1, f.returns ++ " " ++ f.name ++ "<Result extends Object?>(\x7b"⟩ ::
        (handlerLines f vs binding ++ switchOpening ::
          ((armTexts f vs binding).map (fun t => ⟨3, t⟩) ++ switchClosing :: methodClosing :: ms)) := by
    rw [method_deeper]
    simp
  simp only [List.append_assoc, List.cons_append, List.nil_append] at hbehind
  rw [hlines]
  refine (sections_cons hname _).trans ?_
  rw [handlerNames?_handlerLines hl, switchCases?_arms hmethod hswitch harms]
  exact congrArg _ hbehind

/-! ## Redirections -/

theorem redirection?_eq_none {union text : String} (h : constructorName? union text = none) :
    redirection? union text = none := by
  rw [constructorName?, Option.or_eq_none_iff] at h
  rw [redirection?, h.1, Option.bind_none]

/-- A redirecting factory starts with `const`. -/
theorem redirection?_of_head? {union text : String} (h : text.toList.head? ≠ some 'c') :
    redirection? union text = none := by
  have hfront : ("const factory " ++ union ++ ".").toList.head? = some 'c' := by
    simp only [String.toList_append]
    rfl
  rw [redirection?, nameBehind?_of_head? hfront h, Option.bind_none]

theorem redirection?_redirect {v : Variant} (hl : identifier.accepts v.label.toList = true)
    (ht : identifier.accepts v.typeName.toList = true) (union : String) :
    redirection? union (redirect union v) = some (v.label, v.typeName) := by
  have hlabel : nameBehind? ("const factory " ++ union ++ ".") (redirect union v) =
      some v.label := by
    rw [redirect_eq]
    exact nameBehind?_redirect hl
  have htarget : nameBefore? ";" (redirect union v) = some v.typeName := by
    have hblank : ") =" ++ " " = ") = " := rfl
    have hback : redirect union v = "const factory " ++ union ++ "." ++ v.label ++ "(" ++
        parameterList typed v.parameters ++ ") =" ++ " " ++ v.typeName ++ ";" := by
      rw [@String.append_assoc _ ") =" " ", hblank]
      rfl
    rw [hback]
    exact nameBefore?_blank ht
  rw [redirection?, hlabel, Option.bind_some, htarget, Option.map_some]

/-! ## The lines of the code -/

/-- The lines in front of the one that opens the text form. -/
def textFront (o : Options) (d : Declaration) : List Line :=
  importLines o ++
  [⟨0, "sealed class " ++ d.name ++ " extends Equatable \x7b"⟩, ⟨1, "const " ++ d.name ++ "();"⟩,
    .blank] ++
  (d.variants.map fun v => ⟨1, redirect d.name v⟩) ++ lookUpLines o d ++ [.blank, ⟨1, "@override"⟩]

section

variable {o : Options} {d : Declaration} (hd : HasIdentifiers d)

include hd

/-- **The classes** in generated code that extend the union. -/
theorem openedCases_code : openedCases d.name (codeLines o d) =
    d.variants.map Variant.typeName := by
  have hnone : ∀ ls : List Line, (∀ l ∈ ls, className? l = none) →
      ls.filterMap (openedCase? d.name) = [] := by
    intro ls h
    rw [List.filterMap_eq_nil_iff]
    intro l hl
    rw [openedCase?, h l hl, Option.filter_none]
  have hclass : ∀ v ∈ d.variants, (Line.blank :: classLines d.name v).filterMap
      (openedCase? d.name) = [v.typeName] := by
    intro v hv
    have hopen : openedCase? d.name
        ⟨0, "final class " ++ v.typeName ++ " extends " ++ d.name ++ " \x7b"⟩ = some v.typeName := by
      rw [openedCase?, className?_opening (hd.typeNames v hv), Option.filter_some, if_pos]
      exact beq_self_eq_true _
    have hblank : openedCase? d.name .blank = none := rfl
    rw [List.filterMap_cons_none hblank, classLines_eq, List.filterMap_cons_some hopen,
      hnone _ (className?_body v)]
  unfold openedCases
  rw [codeLines_eq_union, List.filterMap_append, hnone _ className?_union, List.filterMap_flatMap,
    List.nil_append, List.flatMap_congr hclass, ← List.map_eq_flatMap]

/-- **The redirecting factories** in generated code. -/
theorem redirections_code : redirections d.name (codeLines o d) =
    d.variants.map fun v => (v.label, v.typeName) := by
  have hothers : ∀ ts : List String, (∀ t ∈ ts, t.toList.head? ≠ some 'c') →
      ts.filterMap (redirection? d.name) = [] := by
    intro ts hts
    rw [List.filterMap_eq_nil_iff]
    exact fun t ht => redirection?_of_head? (hts t ht)
  have hconst : ["const " ++ d.name ++ "();"].filterMap (redirection? d.name) = [] := by
    have hend : "();" = "(" ++ ");" := rfl
    rw [hend, ← String.append_assoc,
      List.filterMap_cons_none (redirection?_eq_none (constructorName?_const hd.name)),
      List.filterMap_nil]
  have hredirects : (d.variants.map (redirect d.name)).filterMap (redirection? d.name) =
      d.variants.map fun v => (v.label, v.typeName) := by
    rw [List.filterMap_map]
    exact List.filterMap_eq_map_iff_forall_eq_some.2 fun v hv =>
      redirection?_redirect (hd.labels v hv) (hd.typeNames v hv) d.name
  have hlookUp : (textsAt 1 (lookUpLines o d)).filterMap (redirection? d.name) = [] := by
    rw [(textsAt_lookUp o d).1]
    split
    · have hfactory : redirection? d.name
          ("factory " ++ d.name ++ ".fromString(String value) \x7b") = none := by
        refine redirection?_of_head? ?_
        simp only [String.toList_append]
        exact fun h => absurd (Option.some.inj h) (by decide)
      rw [List.filterMap_cons_none hfactory, hothers _ (by decide)]
    · rfl
  have hclass : ∀ v ∈ d.variants,
      (textsAt 1 (classLines d.name v)).filterMap (redirection? d.name) = [] := by
    intro v hv
    have hnone := List.filterMap_eq_nil_iff.1 (texts_class (hd.typeNames v hv) d.name).1
    exact List.filterMap_eq_nil_iff.2 fun t ht => redirection?_eq_none (hnone t ht)
  have hclasses := filterMap_classes (redirection?_of_head? (by decide)) d.name 1 hclass
  unfold redirections
  rw [codeLines_eq_union, textsAt_append, List.filterMap_append, (textsAt_union o d).1,
    textsAt_sealed, hclasses]
  simp only [List.filterMap_append, hconst, hredirects, hlookUp]
  rw [(textsAt_text d).1, (textsAt_helpers d).1, hothers _ (by decide),
    hothers _ (by decide +kernel)]
  simp

omit hd in
/-- No line in front of the text form opens it. -/
theorem textOpening_not_mem : textOpening ∉ textFront o d := by
  have htexts : textsAt 1 (textFront o d) = ["const " ++ d.name ++ "();"] ++
      d.variants.map (redirect d.name) ++ textsAt 1 (lookUpLines o d) ++ ["@override"] := by
    unfold textFront
    simp only [textsAt_append, textsAt_cons, textsAt_nil, textsAt_map, textsAt_import]
    simp [Line.blank]
  have hfront : ∀ {t : String} {c : Char} (s : String), t.toList.head? = some c → c ≠ 'S' →
      (t ++ s).toList.head? ≠ some 'S' := by
    intro t c s ht hc
    rw [String.toList_append, List.head?_append, ht]
    exact fun h => hc (Option.some.inj h)
  have hhead : ∀ t ∈ textsAt 1 (textFront o d), t.toList.head? ≠ some 'S' := by
    intro t ht
    rw [htexts, (textsAt_lookUp o d).1] at ht
    simp only [List.mem_append, List.mem_singleton, List.mem_map] at ht
    rcases ht with ((rfl | ⟨v, -, rfl⟩) | ht) | rfl
    · rw [String.append_assoc]
      exact hfront _ rfl (by decide : 'c' ≠ 'S')
    · unfold redirect
      simp only [String.append_assoc]
      exact hfront _ rfl (by decide : 'c' ≠ 'S')
    · split at ht
      · rcases List.mem_cons.1 ht with rfl | ht
        · rw [String.append_assoc]
          exact hfront _ rfl (by decide : 'f' ≠ 'S')
        · rw [List.mem_singleton.1 ht]
          decide
      · cases ht
    · decide
  exact not_mem_of_textsAt fun hm => hhead _ hm (by decide)

/-- **The text form** in generated code takes every case. -/
theorem textCases?_code : textCases? (codeLines o d) = some (d.variants.map Variant.typeName) := by
  have harms : ((textArms d).map Arm.text).mapM armType? =
      some (d.variants.map Variant.typeName) := by
    rw [textArms, List.map_map]
    exact mapM_eq_some_map fun v hv =>
      armType?_ofVariant (hd.typeNames v hv) (by decide : identifier.accepts "value".toList = true) _
  have hlines : codeLines o d = textFront o d ++ textOpening :: ([] ++ switchOpening ::
      (((textArms d).map Arm.text).map (fun t => ⟨3, t⟩) ++ switchClosing :: methodClosing ::
        ⟨0, "\x7d"⟩ :: .blank :: (extensionLines o d ++
          d.variants.flatMap fun v => .blank :: classLines d.name v))) := by
    simp [codeLines, sealedLines, textLines, textFront, textOpening, switchOpening, switchClosing,
      methodClosing, Function.comp_def]
  rw [textCases?, hlines, linesBehind_append textOpening_not_mem]
  exact switchCases?_arms List.not_mem_nil List.not_mem_nil harms

/-- Methods with empty lines between them declare a helper each. -/
theorem helpers_intercalate (fs : List Family) (ms : List Line) :
    helpers ([Line.blank].intercalate (fs.map fun f =>
      (f.method d.variants (bindingName d)).lines.map Line.deeper) ++ ms) =
      fs.map (fun f => ⟨f.name, some (f.handlerNames d.variants),
        some (d.variants.map Variant.typeName)⟩) ++ helpers ms := by
  have hbinding : identifier.accepts (bindingName d).toList = true :=
    accepts_freeName (by decide) _ _
  have hblank : ∀ l ∈ [Line.blank], helperName? l = none := by decide
  induction fs with
  | nil => rfl
  | cons f fs ih =>
    cases fs with
    | nil =>
      rw [List.map_singleton, List.intercalate_singleton,
        helpers_method hd.typeNames hd.labels hbinding]
      rfl
    | cons g fs =>
      rw [List.map_cons, List.map_cons, List.intercalate_cons_cons, List.append_assoc,
        List.append_assoc, helpers_method hd.typeNames hd.labels hbinding]
      exact congrArg _ ((sections_append hblank _).trans ih)

/-- **The helpers** in generated code. -/
theorem helpers_code : helpers (codeLines o d) = Family.all.map fun f =>
    ⟨f.name, some (f.handlerNames d.variants), some (d.variants.map Variant.typeName)⟩ := by
  have hfront : ∀ l ∈ importLines o ++ sealedLines o d ++ [.blank, ⟨0, "extension " ++ d.name ++
      o.helperSuffix ++ " on " ++ d.name ++ " \x7b"⟩], helperName? l = none := by
    refine helperName?_of_typeParameter? fun t ht => ?_
    rw [textsAt_append, textsAt_append, textsAt_import, List.nil_append] at ht
    rcases List.mem_append.1 ht with ht | ht
    · exact typeParameter?_sealed t ht
    · simp [textsAt_cons, textsAt_nil, Line.blank] at ht
  have hclasses : ∀ l ∈ (⟨0, "\x7d"⟩ : Line) :: d.variants.flatMap fun v =>
      .blank :: classLines d.name v, helperName? l = none := by
    refine helperName?_of_typeParameter? fun t ht => ?_
    have hnone := filterMap_classes (f := nameBefore? " extends Object?>(\x7b") (by decide)
      d.name 1 fun v hv => (texts_class (hd.typeNames v hv) d.name).2
    rw [List.flatMap_eq_nil_iff.2 fun _ _ => rfl] at hnone
    exact List.filterMap_eq_nil_iff.1 hnone t ht
  have hlines : codeLines o d = importLines o ++ sealedLines o d ++ [.blank, ⟨0, "extension " ++
      d.name ++ o.helperSuffix ++ " on " ++ d.name ++ " \x7b"⟩] ++ (helperLines d ++
        ((⟨0, "\x7d"⟩ : Line) :: d.variants.flatMap fun v => .blank :: classLines d.name v)) := by
    simp [codeLines, extensionLines]
  have hnone : helpers (_ ++ []) = [] := sections_append hclasses []
  rw [List.append_nil] at hnone
  rw [hlines]
  refine (sections_append hfront _).trans ((helpers_intercalate hd Family.all _).trans ?_)
  rw [hnone, List.append_nil]

end

/-! ## Generated text -/

theorem HasIdentifiers.variantTexts {d : Declaration} (hd : HasIdentifiers d)
    (ht : ∀ v ∈ d.variants, ∀ p ∈ v.parameters, Unbroken p.typeExpression.toList)
    (he : ∀ v ∈ d.variants, ∀ p ∈ v.parameters, ∀ e ∈ p.defaultValue, Unbroken e.toList) :
    ∀ v ∈ d.variants, VariantTexts Unbroken v := fun v hv =>
  ⟨hd.typeNames v hv, hd.labels v hv, hd.parameters v hv, ht v hv, he v hv⟩

/-- **Every list of cases in the generated text is the list of the cases.** The classes that extend
the union, the targets of its factories, the arms of the text form and those of each helper name the
same types in the order of the declaration, each of them once. A helper has one handler for each
label, in the same order, behind the `orElse` of a helper that asks for it. -/
theorem readLines_code_covers {d : Declaration} (o : Options) (hne : d.variants ≠ [])
    (hc : d.check = .ok ()) (hd : HasIdentifiers d)
    (ht : ∀ v ∈ d.variants, ∀ p ∈ v.parameters, Unbroken p.typeExpression.toList)
    (he : ∀ v ∈ d.variants, ∀ p ∈ v.parameters, ∀ e ∈ p.defaultValue, Unbroken e.toList)
    (ho : Unbroken o.helperSuffix.toList) :
    ∃ text, d.code o = .ok text ∧
      openedCases d.name (readLines text) = d.variants.map Variant.typeName ∧
      redirections d.name (readLines text) = d.variants.map (fun v => (v.label, v.typeName)) ∧
      textCases? (readLines text) = some (d.variants.map Variant.typeName) ∧
      helpers (readLines text) = Family.all.map (fun f =>
        ⟨f.name, some (f.handlerNames d.variants), some (d.variants.map Variant.typeName)⟩) ∧
      (d.variants.map Variant.typeName).Nodup ∧
      ∀ f ∈ Family.all, (f.handlerNames d.variants).Nodup := by
  have hdistinct := check_eq_ok_iff_namesDistinct.1 hc
  have hcode : d.code o = .ok (render (codeLines o d)) := by
    unfold Declaration.code
    rw [List.isEmpty_eq_false_iff.2 hne, if_neg Bool.false_ne_true]
  have hlines := readLines_render (legible_codeLines (hd.variantTexts ht he) hd.name ho)
  refine ⟨_, hcode, ?_⟩
  rw [hlines]
  exact ⟨openedCases_code hd, redirections_code hd, textCases?_code hd, helpers_code hd,
    hdistinct.typeNames, fun f _ => nodup_handlerNames hdistinct f⟩

/-- Names like those that the code is written with, and a type, a default and an end of the
extension's name that look like parts of it. -/
theorem readLines_code_covers_marks : ∃ d : Declaration,
    d = ⟨"Status", [⟨"final", "value", []⟩, ⟨"_Failure", "when", [⟨"message",
      "Map<String, Result Function(\x7bint a\x7d)>", some "const \x7b'\x7d;': '=> _,'\x7d",
      .named⟩]⟩]⟩ ∧
    ∃ text, d.code ⟨false, true, .throwError, " on A \x7b"⟩ = .ok text ∧
      openedCases "Status" (readLines text) = ["final", "_Failure"] ∧
      redirections "Status" (readLines text) = [("value", "final"), ("when", "_Failure")] ∧
      textCases? (readLines text) = some ["final", "_Failure"] ∧
      (helpers (readLines text)).map Helper.cases = List.replicate 8 (some ["final", "_Failure"]) ∧
      ⟨"maybeWhen", some ["orElse", "value", "when"], some ["final", "_Failure"]⟩ ∈
        helpers (readLines text) := by
  obtain ⟨text, hcode, hclasses, hredirects, htext, hhelpers, -, -⟩ := readLines_code_covers
    (d := ⟨"Status", [⟨"final", "value", []⟩, ⟨"_Failure", "when", [⟨"message",
      "Map<String, Result Function(\x7bint a\x7d)>", some "const \x7b'\x7d;': '=> _,'\x7d",
      .named⟩]⟩]⟩) ⟨false, true, .throwError, " on A \x7b"⟩ (by decide) rfl
    ⟨by decide, by decide, by decide, by decide⟩ (by decide) (by decide) (by decide)
  refine ⟨_, rfl, text, hcode, hclasses, hredirects, htext, ?_, ?_⟩
  · rw [hhelpers]
    rfl
  · rw [hhelpers]
    decide

end DartUnion.Output
