import DartUnion.Output.Code
import DartUnion.Proofs.Regrouping

/-!
# What generated code is made of

The texts of generated code are fixed words and marks, the names of the union, and the types and
defaults that parameters carry over from the source. So what holds of all of these and of texts put
together holds of every line. What a line must not hold can be said this way, once for all lines.

* `Additive`: a property that texts put together have when each has it.
* `Texture`: one that names and the marks of the code have as well.
* `VariantTexts`: the texts that a variant brings along have it.

Results:
* `Texture.handler`, `Texture.helperArm`, `Texture.initialising`: the texts made of a variant.
* `Texture.lookUpLines`, `Texture.textLines`, `Texture.methodLines`: **the methods of the code have
  the property line by line, up to the end of their `switch`.**
-/

namespace DartUnion.Output

open DartUnion.Dart DartUnion.Source

/-! ## Properties of texts -/

/-- A property that texts put together have when each has it. -/
structure Additive (P : List Char → Prop) : Prop where
  nil : P []
  append : ∀ {s t : List Char}, P s → P t → P (s ++ t)

/-- A group between its brackets is a single item. -/
theorem eq_of_mem_bracketed {opening closing i : String} {items : List String}
    (h : i ∈ bracketed opening closing items) : i = opening ++ commas items ++ closing := by
  unfold bracketed at h
  split at h
  · cases h
  · exact List.mem_singleton.1 h

section

variable {P : List Char → Prop} (hP : Additive P)

include hP

theorem Additive.text {s t : String} (hs : P s.toList) (ht : P t.toList) : P (s ++ t).toList := by
  rw [String.toList_append]
  exact hP.append hs ht

theorem Additive.commas (hcomma : P ", ".toList) {items : List String}
    (h : ∀ i ∈ items, P i.toList) : P (commas items).toList := by
  induction items with
  | nil => exact hP.nil
  | cons i items ih =>
    have hi := h i List.mem_cons_self
    have hrest := ih fun j hj => h j (List.mem_cons_of_mem i hj)
    cases items with
    | nil =>
      rw [commas_singleton]
      exact hi
    | cons j items =>
      rw [Output.commas, String.intercalate_cons_cons]
      exact hP.text (hP.text hi hcomma) hrest

theorem Additive.bracketed {opening closing : String} (ho : P opening.toList)
    (hc : P closing.toList) (hcomma : P ", ".toList) {items : List String}
    (h : ∀ i ∈ items, P i.toList) : ∀ i ∈ bracketed opening closing items, P i.toList := by
  intro i hi
  rw [eq_of_mem_bracketed hi]
  exact hP.text (hP.text ho (hP.commas hcomma h)) hc

/-- What holds of the marks of a parameter list and of each parameter holds of the list. -/
theorem Additive.parameterList
    (hmarks : ∀ s ∈ [", ", "[", "]", "\x7b", "\x7d", "required "], P (String.toList s))
    {shown : Parameter → String} {ps : List Parameter} (h : ∀ p ∈ ps, P (shown p).toList) :
    P (parameterList shown ps).toList := by
  have hcomma := hmarks ", " (by decide)
  refine hP.commas hcomma fun i hi => ?_
  rcases List.mem_append.1 hi with hi | hi
  · rcases List.mem_append.1 hi with hi | hi
    · obtain ⟨p, hp, rfl⟩ := List.mem_map.1 hi
      exact h p (List.mem_filter.1 hp).1
    · refine hP.bracketed (hmarks "[" (by decide)) (hmarks "]" (by decide)) hcomma ?_ i hi
      intro j hj
      obtain ⟨p, hp, rfl⟩ := List.mem_map.1 hj
      exact h p (List.mem_filter.1 hp).1
  · refine hP.bracketed (hmarks "\x7b" (by decide)) (hmarks "\x7d" (by decide)) hcomma ?_ i hi
    intro j hj
    obtain ⟨p, hp, rfl⟩ := List.mem_map.1 hj
    have hshown := h p (List.mem_filter.1 hp).1
    unfold stated
    split
    · exact hP.text (hmarks "required " (by decide)) hshown
    · exact hshown

end

/-! ## Lines as text -/

/-- The text of lines, as characters. -/
def linesText (ls : List Line) : List Char := (render ls).toList

theorem linesText_append (ls ms : List Line) :
    linesText (ls ++ ms) = linesText ls ++ linesText ms := by
  rw [linesText, render_append, String.toList_append]
  rfl

theorem linesText_cons (l : Line) (ls : List Line) :
    linesText (l :: ls) = l.render.toList ++ linesText ls := by
  rw [linesText, linesText, render, List.map_cons, String.toList_join, render, String.toList_join,
    List.flatMap_cons]

/-- The spaces in front of a line, its text and its end. -/
theorem toList_render_spaces (l : Line) :
    l.render.toList = List.replicate (2 * l.depth) ' ' ++ (l.text.toList ++ ['\n']) := by
  have hspaces : ∀ n, (String.join (List.replicate n "  ")).toList = List.replicate (2 * n) ' ' := by
    intro n
    rw [String.toList_join]
    induction n with
    | zero => rfl
    | succ n ih =>
      rw [List.replicate_succ, List.flatMap_cons, ih]
      rfl
  rw [Line.render, String.toList_append, String.toList_append, hspaces, List.append_assoc]
  rfl

/-! ## What the methods of the code are made of -/

/-- An unmatched look-up gives a case of the union, if it gives one. -/
theorem mem_of_fallback {f : Fallback} {d : Declaration} {v : Variant} (h : f.variant? d = some v) :
    v ∈ d.variants := by
  unfold Fallback.variant? at h
  split at h
  · exact List.mem_of_head? h
  · cases h

/-- The arms of the look-up are those of labels and the one that takes what is left. -/
theorem mem_lookUpArms {o : Options} {d : Declaration} {a : Arm} (h : a ∈ lookUpArms o d) :
    (∃ v ∈ d.variants, a = ⟨.literal v.label, construction d.name v⟩) ∨
      a = ⟨.wildcard, fallbackBody o d⟩ := by
  rw [lookUpArms, filterMap_lookUpArm?, List.mem_append, List.mem_singleton] at h
  refine h.imp_left fun h => ?_
  obtain ⟨v, hv, rfl⟩ := List.mem_map.1 h
  exact ⟨v, (List.mem_filter.1 hv).1, rfl⟩

/-- What steps in for a missing handler answers like the handlers. -/
theorem eq_answerType {f : Family} {vs : List Variant} {binding t : String}
    (h : t ∈ (f.method vs binding).orElse.toList) : t = answerType f.async := by
  unfold Family.method at h
  split at h
  · exact List.mem_singleton.1 h
  · cases h

/-! ## Names and marks -/

/-- The characters of names and the marks of generated code, apart from the semicolon behind its
statements and the slash of its import. -/
def isCodeChar (c : Char) : Bool :=
  identifier.next c || " .,()[]\x7b\x7d<>='?!:@\\".toList.contains c

/-- A property that texts put together have when each has it, and that any text made of names and
marks has. -/
structure Texture (P : List Char → Prop) : Prop extends Additive P where
  code : ∀ {s : List Char}, s.all isCodeChar = true → P s

/-- What is asked of each character is a texture when names and marks may have it. -/
theorem texture_of_chars {p : Char → Prop} (h : ∀ c, isCodeChar c = true → p c) :
    Texture fun s => ∀ c ∈ s, p c where
  nil := fun _ hc => absurd hc List.not_mem_nil
  append hs ht := fun c hc => (List.mem_append.1 hc).elim (hs c) (ht c)
  code hs := fun c hc => h c (List.all_eq_true.1 hs c hc)

theorem all_isCodeChar_of_accepts {s : List Char} (h : identifier.accepts s = true) :
    s.all isCodeChar = true :=
  List.all_eq_true.2 fun c hc => by rw [isCodeChar, next_of_accepts h hc, Bool.true_or]

/-- Names of the variant are identifiers, and its types and defaults have the property. -/
structure VariantTexts (P : List Char → Prop) (v : Variant) : Prop where
  typeName : identifier.accepts v.typeName.toList = true
  label : identifier.accepts v.label.toList = true
  names : ∀ p ∈ v.parameters, identifier.accepts p.name.toList = true
  types : ∀ p ∈ v.parameters, P p.typeExpression.toList
  defaults : ∀ p ∈ v.parameters, ∀ e, p.defaultValue = some e → P e.toList

namespace Texture

variable {P : List Char → Prop} (hP : Texture P)

include hP

theorem name {s : String} (h : identifier.accepts s.toList = true) : P s.toList :=
  hP.code (all_isCodeChar_of_accepts h)

theorem escape {s : String} (h : identifier.accepts s.toList = true) :
    P (Dart.escape s).toList := by
  refine hP.code (List.all_eq_true.2 fun c hc => ?_)
  rw [toList_escape] at hc
  rcases mem_of_mem_escapeChars hc with rfl | hc
  · decide
  · exact List.all_eq_true.1 (all_isCodeChar_of_accepts h) c hc

theorem freeName {labels : List String} {name : String} (h : P name.toList) (spare : Nat) :
    P (freeName labels name spare).toList := by
  induction spare generalizing name with
  | zero => exact h
  | succ spare ih =>
    rw [Output.freeName]
    split
    · exact ih (hP.text h (hP.code (by decide)))
    · exact h

theorem bindingName (d : Declaration) : P (bindingName d).toList :=
  hP.freeName (hP.code (by decide)) d.variants.length

theorem typed {p : Parameter} (ht : P p.typeExpression.toList)
    (hn : identifier.accepts p.name.toList = true) : P (typed p).toList :=
  hP.text (hP.text ht (hP.code (by decide))) (hP.name hn)

theorem initialising {p : Parameter} (hn : identifier.accepts p.name.toList = true)
    (hd : ∀ e, p.defaultValue = some e → P e.toList) : P (initialising p).toList := by
  unfold Output.initialising
  split
  · next e he =>
    exact hP.text (hP.text (hP.text (hP.code (by decide)) (hP.name hn)) (hP.code (by decide)))
      (hd e he)
  · exact hP.text (hP.code (by decide)) (hP.name hn)

theorem parameterList {shown : Parameter → String} {ps : List Parameter}
    (h : ∀ p ∈ ps, P (shown p).toList) : P (parameterList shown ps).toList := by
  have hmarks : ∀ s ∈ [", ", "[", "]", "\x7b", "\x7d", "required "],
      s.toList.all isCodeChar = true := by
    decide
  exact hP.toAdditive.parameterList (fun s hs => hP.code (hmarks s hs)) h

theorem commas_map {α : Type} {f : α → String} {xs : List α} (h : ∀ x ∈ xs, P (f x).toList) :
    P (commas (xs.map f)).toList := by
  refine hP.commas (hP.code (by decide)) fun i hi => ?_
  obtain ⟨x, hx, rfl⟩ := List.mem_map.1 hi
  exact h x hx

theorem field {binding : String} (hb : P binding.toList) {p : Parameter}
    (hn : identifier.accepts p.name.toList = true) : P (field binding p).toList :=
  hP.text (hP.text hb (hP.code (by decide))) (hP.name hn)

/-! ## Arms -/

theorem arm {a : Arm} (hp : P a.pattern.text.toList) (hb : P a.body.toList) : P a.text.toList :=
  hP.text (hP.text (hP.text hp (hP.code (by decide))) hb) (hP.code (by decide))

section

variable {v : Variant} (hv : VariantTexts P v)

include hv

theorem construction {union : String} (hu : P union.toList) : P (construction union v).toList := by
  refine hP.text (hP.text (hP.text (hP.text ?_ hu) (hP.code (by decide))) (hP.name hv.label))
    (hP.code (by decide))
  split
  · exact hP.code (by decide)
  · exact hP.nil

theorem bind {binding : String} (hb : P binding.toList) :
    P (Pattern.bind v.typeName binding).text.toList :=
  hP.text (hP.text (hP.text (hP.code (by decide)) (hP.name hv.typeName)) (hP.code (by decide))) hb

theorem ofVariant {binding : String} (hb : P binding.toList) :
    P (Pattern.ofVariant v binding).text.toList := by
  unfold Pattern.ofVariant
  split
  · exact hP.text (hP.name hv.typeName) (hP.code (by decide))
  · exact hP.bind hv hb

theorem textArm {binding : String} (hb : P binding.toList) : P (textArm binding v).text.toList := by
  refine hP.arm (hP.ofVariant hv hb) ?_
  refine hP.text (hP.text (hP.text (hP.text (hP.code (by decide)) (hP.escape hv.typeName))
    (hP.code (by decide))) (hP.commas_map fun p hp => ?_)) (hP.code (by decide))
  exact hP.text (hP.text (hP.code (by decide)) (hP.field hb (hv.names p hp))) (hP.code (by decide))

end

/-! ## Helpers -/

theorem answerType (async : Bool) : P (answerType async).toList := by
  cases async with
  | false => exact hP.code (by decide)
  | true => exact hP.code (by decide)

/-- The line that opens the extension. -/
theorem extensionOpening {union suffix : String} (hu : P union.toList) (hs : P suffix.toList) :
    P ("extension " ++ union ++ suffix ++ " on " ++ union ++ " \x7b").toList :=
  hP.text (hP.text (hP.text (hP.text (hP.text (hP.code (by decide)) hu) hs) (hP.code (by decide))) hu)
    (hP.code (by decide))

/-- The names of the helpers and the types that they return. -/
theorem family (f : Family) : P f.name.toList ∧ P f.returns.toList := by
  have hall : f.name.toList.all isCodeChar = true ∧ f.returns.toList.all isCodeChar = true := by
    obtain ⟨receives, absence, async⟩ := f
    cases receives <;> cases absence <;> cases async <;> decide
  exact ⟨hP.code hall.1, hP.code hall.2⟩

theorem dispatch {x : Dispatch} (hl : P x.label.toList) (ha : ∀ i ∈ x.arguments, P i.toList) :
    P x.text.toList := by
  obtain ⟨label, arguments, absence, async⟩ := x
  have hwait : P (if async then "await " else "").toList := by
    split
    · exact hP.code (by decide)
    · exact hP.nil
  have harguments : P ("(" ++ commas arguments ++ ")").toList :=
    hP.text (hP.text (hP.code (by decide)) (hP.commas (hP.code (by decide)) ha))
      (hP.code (by decide))
  cases absence with
  | impossible => exact hP.text (hP.text hwait hl) harguments
  | orElse =>
    have htest : P (label ++ " != null ? ").toList := hP.text hl (hP.code (by decide))
    have hcall := hP.text (hP.text (hP.text htest hwait) hl) harguments
    exact hP.text (hP.text (hP.text hcall (hP.code (by decide))) hwait) (hP.code (by decide))
  | null => exact hP.text (hP.text (hP.text hwait hl) (hP.code (by decide))) harguments

section

variable {v : Variant} (hv : VariantTexts P v) (f : Family) {binding : String}
  (hb : P binding.toList)

include hv hb

theorem handler : P (f.handler binding v).text.toList := by
  have htype : P (f.handler binding v).type.text.toList := by
    refine hP.text (hP.text (hP.text (hP.answerType _) (hP.code (by decide))) ?_)
      (hP.code (by decide))
    unfold Family.handler
    cases f.receives with
    | fields => exact hP.commas_map fun p hp => hP.typed (hv.types p hp) (hv.names p hp)
    | case =>
      refine hP.commas (hP.code (by decide)) fun i hi => ?_
      rw [List.mem_singleton.1 hi]
      exact hP.text (hP.text (hP.name hv.typeName) (hP.code (by decide))) hb
  refine hP.text (hP.text (hP.text ?_ (hP.code (by decide))) (hP.name hv.label))
    (hP.code (by decide))
  split
  · exact hP.text (hP.code (by decide)) htype
  · exact hP.text htype (hP.code (by decide))

theorem helperArm : P (Arm.mk (f.arm binding v).1 (f.arm binding v).2.text).text.toList := by
  unfold Family.arm
  cases f.receives with
  | fields =>
    refine hP.arm (hP.ofVariant hv hb) (hP.dispatch (hP.name hv.label) fun i hi => ?_)
    obtain ⟨p, hp, rfl⟩ := List.mem_map.1 hi
    exact hP.field hb (hv.names p hp)
  | case =>
    refine hP.arm (hP.bind hv hb) (hP.dispatch (hP.name hv.label) fun i hi => ?_)
    rw [List.mem_singleton.1 hi]
    exact hb

end

/-! ## Methods -/

section

variable {d : Declaration} (hname : identifier.accepts d.name.toList = true)
  (hd : ∀ v ∈ d.variants, VariantTexts P v)

include hd

/-- The text form, up to the end of its `switch`. -/
theorem textLines : ∃ front : List Line,
    textLines d = front ++ [⟨2, "\x7d;"⟩, ⟨1, "\x7d"⟩] ∧ ∀ l ∈ front, P l.text.toList := by
  refine ⟨_, rfl, fun l hl => ?_⟩
  rcases List.mem_append.1 hl with hl | hl
  · have hhead : ∀ l ∈ [(⟨1, "@override"⟩ : Line), ⟨1, "String toString() \x7b"⟩,
        ⟨2, "return switch (this) \x7b"⟩], l.text.toList.all isCodeChar = true := by
      decide
    exact hP.code (hhead l hl)
  · obtain ⟨a, ha, rfl⟩ := List.mem_map.1 hl
    obtain ⟨v, hv, rfl⟩ := List.mem_map.1 ha
    exact hP.textArm (hd v hv) (hP.code (by decide))

/-- A helper, up to the end of its `switch`. -/
theorem methodLines (f : Family) : ∃ front : List Line,
    (f.method d.variants (Output.bindingName d)).lines = front ++ [⟨1, "\x7d;"⟩, ⟨0, "\x7d"⟩] ∧
      ∀ l ∈ front, P l.text.toList := by
  obtain ⟨hfamily, hreturns⟩ := hP.family f
  have hbinding := hP.bindingName d
  refine ⟨_, rfl, fun l hl => ?_⟩
  simp only [List.mem_append, List.mem_cons, List.not_mem_nil, or_false, List.mem_map] at hl
  rcases hl with (((rfl | ⟨t, ht, rfl⟩) | ⟨h, hh, rfl⟩) | (rfl | rfl)) | ⟨a, ha, rfl⟩
  · exact hP.text (hP.text (hP.text hreturns (hP.code (by decide))) hfamily) (hP.code (by decide))
  · rw [eq_answerType ht]
    exact hP.text (hP.text (hP.code (by decide)) (hP.answerType _)) (hP.code (by decide))
  · obtain ⟨v, hv, rfl⟩ := List.mem_map.1 hh
    exact hP.handler (hd v hv) f hbinding
  · show P (if f.async then "\x7d) async \x7b" else "\x7d) \x7b").toList
    split
    · exact hP.code (by decide)
    · exact hP.code (by decide)
  · exact hP.code (by decide)
  · obtain ⟨v, hv, rfl⟩ := List.mem_map.1 ha
    exact hP.helperArm (hd v hv) f hbinding

include hname

/-- The look-up by label, up to the end of its `switch`. -/
theorem lookUpLines {o : Options} (ho : o.fromString = true) : ∃ front : List Line,
    lookUpLines o d = front ++ [⟨2, "\x7d;"⟩, ⟨1, "\x7d"⟩] ∧ ∀ l ∈ front, P l.text.toList := by
  have hfallback : P (fallbackBody o d).toList := by
    unfold fallbackBody
    split
    · next v hv => exact hP.construction (hd v (mem_of_fallback hv)) (hP.name hname)
    · exact hP.code (by decide)
  unfold Output.lookUpLines
  rw [if_pos ho]
  refine ⟨_, rfl, fun l hl => ?_⟩
  rcases List.mem_append.1 hl with hl | hl
  · simp only [List.mem_cons, List.not_mem_nil, or_false] at hl
    rcases hl with rfl | rfl | rfl
    · exact hP.nil
    · exact hP.text (hP.text (hP.code (by decide)) (hP.name hname)) (hP.code (by decide))
    · exact hP.code (by decide)
  · obtain ⟨a, ha, rfl⟩ := List.mem_map.1 hl
    rcases mem_lookUpArms ha with ⟨v, hv, rfl⟩ | rfl
    · exact hP.arm (hP.text (hP.text (hP.code (by decide)) (hP.escape (hd v hv).label))
        (hP.code (by decide))) (hP.construction (hd v hv) (hP.name hname))
    · exact hP.arm (hP.code (by decide : "_".toList.all isCodeChar = true)) hfallback

end

end Texture

end DartUnion.Output
