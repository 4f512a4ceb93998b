import DartUnion.Proofs.CodeTexts

/-!
# The lines of generated code, read off its text

A text is cut at its line ends, and the spaces in front of a line tell its depth. This gives the
lines of generated code back, because none of them holds a line end or starts with a space: all are
made of fixed words and names, and the types and defaults that they carry hold no line end.

* `readLines`: the lines of a text.
* `Legible`: a line that can be read back.

Results:
* `readLines_render`: **legible lines are read back.**
* `legible_codeLines`: **every line of generated code is legible**, as long as no type, no default and
  no end of the extension's name holds a line end.
-/

namespace DartUnion.Output

open DartUnion.Dart DartUnion.Source DartUnion.Text

/-! ## Reading lines -/

/-- The line that a text shows: two spaces in front for every level. -/
def Line.ofText (s : List Char) : Line :=
  ⟨(s.takeWhile (· == ' ')).length / 2, String.ofList (s.dropWhile (· == ' '))⟩

/-- The lines of a text. What stands behind the last line end is no line. -/
def readLines (text : String) : List Line := (endedBy '\n' text.toList).map Line.ofText

/-- No line end. -/
def Unbroken (s : List Char) : Prop := ∀ c ∈ s, c ≠ '\n'

instance (s : List Char) : Decidable (Unbroken s) := inferInstanceAs (Decidable (∀ c ∈ s, _))

/-- The line ends where its text ends, and its text starts where its spaces end. -/
structure Legible (l : Line) : Prop where
  unbroken : Unbroken l.text.toList
  front : l.text.toList.head? ≠ some ' '

theorem ofText_eq {l : Line} (h : l.text.toList.head? ≠ some ' ') :
    Line.ofText (List.replicate (2 * l.depth) ' ' ++ l.text.toList) = l := by
  have hspaces : ∀ c ∈ List.replicate (2 * l.depth) ' ', (c == ' ') = true := by simp
  have htext : l.text.toList.takeWhile (· == ' ') = [] ∧
      l.text.toList.dropWhile (· == ' ') = l.text.toList := by
    cases hs : l.text.toList with
    | nil => simp
    | cons c s =>
      have hc : c ≠ ' ' := by
        rintro rfl
        simp [hs] at h
      simp [hc]
  unfold Line.ofText
  rw [List.takeWhile_append_of_pos hspaces, List.dropWhile_append_of_pos hspaces, htext.1, htext.2]
  simp

/-- **Legible lines are read back.** -/
theorem readLines_render {ls : List Line} (h : ∀ l ∈ ls, Legible l) :
    readLines (render ls) = ls := by
  show (endedBy '\n' (linesText ls)).map Line.ofText = ls
  induction ls with
  | nil => rfl
  | cons l ls ih =>
    have hl := h l List.mem_cons_self
    have hline : Unbroken (List.replicate (2 * l.depth) ' ' ++ l.text.toList) := by
      intro c hc
      rcases List.mem_append.1 hc with hc | hc
      · rw [List.eq_of_mem_replicate hc]
        decide
      · exact hl.unbroken c hc
    have htext : linesText (l :: ls) =
        List.replicate (2 * l.depth) ' ' ++ l.text.toList ++ '\n' :: linesText ls := by
      rw [linesText_cons, toList_render_spaces]
      simp
    rw [htext, endedBy_closed (fun hm => hline _ hm rfl), List.map_cons, ofText_eq hl.front,
      ih fun m hm => h m (List.mem_cons_of_mem l hm)]

/-! ## Texts without a space in front -/

theorem unbroken_texture : Texture Unbroken := texture_of_chars fun c hc => by
  rintro rfl
  cases hc

/-- The text starts with something other than a space. -/
def Flush (s : String) : Prop := s.toList.head?.any (· != ' ') = true

instance (s : String) : Decidable (Flush s) := inferInstanceAs (Decidable (_ = true))

theorem Flush.append {s : String} (h : Flush s) (t : String) : Flush (s ++ t) := by
  unfold Flush at *
  rw [String.toList_append]
  cases hs : s.toList with
  | nil => simp [hs] at h
  | cons c s => simpa [hs] using h

theorem flush_of_accepts {s : String} (h : identifier.accepts s.toList = true) : Flush s := by
  unfold Flush
  cases hs : s.toList with
  | nil => simp [hs, NameClass.accepts] at h
  | cons c t =>
    have hc : identifier.next c = true := next_of_accepts h (by simp [hs])
    have hne : c ≠ ' ' := ne_of_next hc rfl
    simp [hne]

theorem Flush.legible {l : Line} (h : Flush l.text) (ho : Unbroken l.text.toList) : Legible l := by
  refine ⟨ho, fun hc => ?_⟩
  simp [Flush, hc] at h

theorem legible_blank : Legible .blank := ⟨by decide, by decide⟩

theorem Legible.deeper {l : Line} (h : Legible l) : Legible l.deeper := ⟨h.unbroken, h.front⟩

/-- Lines in front of the end of a `switch`. -/
theorem unbroken_closed {front : List Line} (h : ∀ l ∈ front, Unbroken l.text.toList)
    (inner outer : Nat) :
    ∀ l ∈ front ++ [⟨inner, "\x7d;"⟩, ⟨outer, "\x7d"⟩], Unbroken l.text.toList := by
  intro l hl
  simp only [List.mem_append, List.mem_cons, List.not_mem_nil, or_false] at hl
  rcases hl with hl | rfl | rfl
  · exact h l hl
  · exact (by decide : Unbroken "\x7d;".toList)
  · exact (by decide : Unbroken "\x7d".toList)

/-! ## Arms and handlers -/

section

variable {v : Variant} (hv : VariantTexts Unbroken v)

include hv

theorem flush_ofVariant (binding : String) : Flush (Pattern.ofVariant v binding).text := by
  unfold Pattern.ofVariant
  split
  · exact (flush_of_accepts hv.typeName).append _
  · exact (((by decide : Flush "final ").append _).append _).append _

theorem flush_helperArm (f : Family) (binding : String) : Flush (f.arm binding v).1.text := by
  unfold Family.arm
  cases f.receives with
  | fields => exact flush_ofVariant hv binding
  | case => exact (((by decide : Flush "final ").append _).append _).append _

theorem legible_redirect {union : String} (hu : Unbroken union.toList) :
    Legible ⟨1, redirect union v⟩ := by
  have hfront : Flush ("const factory " ++ union ++ "." ++ v.label) :=
    (((by decide : Flush "const factory ").append _).append _).append _
  refine Flush.legible (((((hfront.append _).append _).append _).append _).append _) ?_
  have htext := unbroken_texture
  exact htext.text (htext.text (htext.text (htext.text (htext.text (htext.text (htext.text
    (htext.text (by decide) hu) (by decide)) (htext.name hv.label)) (by decide))
    (htext.parameterList fun p hp => htext.typed (hv.types p hp) (hv.names p hp))) (by decide))
    (htext.name hv.typeName)) (by decide)

end

theorem flush_answerType (async : Bool) : Flush (answerType async) := by
  cases async <;> decide

theorem flush_returns (f : Family) : Flush f.returns := by
  obtain ⟨receives, absence, async⟩ := f
  cases receives <;> cases absence <;> cases async <;> decide

theorem flush_handlerType (t : HandlerType) : Flush t.text :=
  (((flush_answerType _).append _).append _).append _

theorem flush_handler (h : Handler) : Flush h.text := by
  refine ((Flush.append ?_ _).append _).append _
  split
  · exact (by decide : Flush "required ").append _
  · exact (flush_handlerType h.type).append _

/-! ## The look-up by label -/

/-- Escaping adds no line end. -/
theorem unbroken_escape {s : String} (h : Unbroken s.toList) : Unbroken (escape s).toList := by
  intro c hc
  rw [toList_escape] at hc
  rcases mem_of_mem_escapeChars hc with rfl | hc
  · decide
  · exact h c hc

/-- The look-up says nothing of types and parameters: its lines are legible when the name of the union
and the labels hold no line end. -/
theorem legible_lookUp {o : Options} {d : Declaration} (hname : Unbroken d.name.toList)
    (hlabels : ∀ v ∈ d.variants, Unbroken v.label.toList) : ∀ l ∈ lookUpLines o d, Legible l := by
  have htext := unbroken_texture
  have hconstruction : ∀ v ∈ d.variants, Unbroken (construction d.name v).toList := by
    intro v hv
    refine htext.text (htext.text (htext.text (htext.text ?_ hname) (by decide)) (hlabels v hv))
      (by decide)
    split <;> decide
  have hfallback : Unbroken (fallbackBody o d).toList := by
    unfold fallbackBody
    split
    · next v hv => exact hconstruction v (mem_of_fallback hv)
    · decide
  unfold lookUpLines lookUpArms
  split
  · intro l hl
    rw [filterMap_lookUpArm?] at hl
    simp only [List.mem_append, List.mem_cons, List.mem_map, List.not_mem_nil, or_false] at hl
    rcases hl with ((rfl | rfl | rfl) | ⟨a, ⟨v, hv, rfl⟩ | rfl, rfl⟩) | rfl | rfl
    · exact legible_blank
    · exact Flush.legible (((by decide : Flush "factory ").append _).append _)
        (htext.text (htext.text (by decide) hname) (by decide))
    · exact Flush.legible (by decide : Flush "return switch (value) \x7b") (by decide)
    · have hmem := (List.mem_filter.1 hv).1
      have hquote : Flush "'" := by decide
      exact Flush.legible (((((hquote.append _).append _).append _).append _).append _)
        (htext.text (htext.text (htext.text (htext.text (htext.text (by decide)
          (unbroken_escape (hlabels v hmem))) (by decide)) (by decide)) (hconstruction v hmem))
          (by decide))
    · exact Flush.legible ((((by decide : Flush "_").append _).append _).append _)
        (htext.text (htext.text (by decide : Unbroken "_ => ".toList) hfallback) (by decide))
    · exact Flush.legible (by decide : Flush "\x7d;") (by decide)
    · exact Flush.legible (by decide : Flush "\x7d") (by decide)
  · exact fun l hl => absurd hl List.not_mem_nil

/-! ## The lines of the code -/

section

variable {o : Options} {d : Declaration} (hd : ∀ v ∈ d.variants, VariantTexts Unbroken v)

include hd

theorem legible_textLines : ∀ l ∈ textLines d, Legible l := by
  obtain ⟨front, hlines, hfront⟩ := unbroken_texture.textLines hd
  intro l hl
  have hone : Unbroken l.text.toList := unbroken_closed hfront 2 1 l (hlines ▸ hl)
  simp only [textLines, textArms, List.mem_append, List.mem_cons, List.mem_map, List.not_mem_nil,
    or_false] at hl
  refine Flush.legible ?_ hone
  rcases hl with ((rfl | rfl | rfl) | ⟨a, ⟨v, hv, rfl⟩, rfl⟩) | rfl | rfl
  · exact (by decide : Flush "@override")
  · exact (by decide : Flush "String toString() \x7b")
  · exact (by decide : Flush "return switch (this) \x7b")
  · exact (((flush_ofVariant (hd v hv) _).append _).append _).append _
  · exact (by decide : Flush "\x7d;")
  · exact (by decide : Flush "\x7d")

theorem legible_method (f : Family) : ∀ l ∈ (f.method d.variants (bindingName d)).lines,
    Legible l := by
  obtain ⟨front, hlines, hfront⟩ := unbroken_texture.methodLines hd f
  intro l hl
  have hone : Unbroken l.text.toList := unbroken_closed hfront 1 0 l (hlines ▸ hl)
  simp only [Method.lines, Family.method, List.mem_append, List.mem_cons, List.mem_map,
    List.not_mem_nil, or_false] at hl
  refine Flush.legible ?_ hone
  rcases hl with ((((rfl | ⟨t, -, rfl⟩) | ⟨h, -, rfl⟩) | rfl | rfl) | ⟨a, ⟨v, hv, rfl⟩, rfl⟩) |
    rfl | rfl
  · exact (((flush_returns f).append _).append _).append _
  · exact ((by decide : Flush "required ").append _).append _
  · exact flush_handler h
  · show Flush (if f.async then "\x7d) async \x7b" else "\x7d) \x7b")
    split <;> decide
  · exact (by decide : Flush "return switch (this) \x7b")
  · exact (((flush_helperArm (hd v hv) f _).append _).append _).append _
  · exact (by decide : Flush "\x7d;")
  · exact (by decide : Flush "\x7d")

omit hd in
/-- What holds of what stands between others and of these holds of all together. -/
theorem mem_intercalate {l : Line} {ls : List Line} {ms : List (List Line)}
    (h : l ∈ ls.intercalate ms) : l ∈ ls ∨ ∃ m ∈ ms, l ∈ m := by
  induction ms with
  | nil => cases h
  | cons m ms ih =>
    cases ms with
    | nil =>
      rw [List.intercalate_singleton] at h
      exact .inr ⟨m, List.mem_cons_self, h⟩
    | cons n ms =>
      rw [List.intercalate_cons_cons, List.mem_append, List.mem_append] at h
      rcases h with (h | h) | h
      · exact .inr ⟨m, List.mem_cons_self, h⟩
      · exact .inl h
      · exact (ih h).imp_right fun ⟨k, hk, hl⟩ => ⟨k, List.mem_cons_of_mem m hk, hl⟩

theorem legible_helperLines : ∀ l ∈ helperLines d, Legible l := by
  intro l hl
  rcases mem_intercalate hl with hl | ⟨m, hm, hl⟩
  · rw [List.mem_singleton.1 hl]
    exact legible_blank
  · obtain ⟨f, -, rfl⟩ := List.mem_map.1 hm
    obtain ⟨k, hk, rfl⟩ := List.mem_map.1 hl
    exact (legible_method hd f k hk).deeper

variable (hname : identifier.accepts d.name.toList = true)

include hname

theorem legible_lookUpLines : ∀ l ∈ lookUpLines o d, Legible l :=
  legible_lookUp (unbroken_texture.name hname) fun v hv => unbroken_texture.name (hd v hv).label

theorem legible_sealedLines : ∀ l ∈ sealedLines o d, Legible l := by
  have hunion : Unbroken d.name.toList := unbroken_texture.name hname
  intro l hl
  simp only [sealedLines, List.mem_append, List.mem_cons, List.mem_map, List.not_mem_nil,
    or_false] at hl
  rcases hl with (((((rfl | rfl | rfl) | ⟨v, hv, rfl⟩) | hl) | rfl) | hl) | rfl
  · exact Flush.legible (((by decide : Flush "sealed class ").append _).append _)
      (unbroken_texture.text (unbroken_texture.text (by decide) hunion) (by decide))
  · exact Flush.legible (((by decide : Flush "const ").append _).append _)
      (unbroken_texture.text (unbroken_texture.text (by decide) hunion) (by decide))
  · exact legible_blank
  · exact legible_redirect (hd v hv) hunion
  · exact legible_lookUpLines hd hname l hl
  · exact legible_blank
  · exact legible_textLines hd l hl
  · exact ⟨by decide, by decide⟩

theorem legible_extensionLines (ho : Unbroken o.helperSuffix.toList) :
    ∀ l ∈ extensionLines o d, Legible l := by
  have hunion : Unbroken d.name.toList := unbroken_texture.name hname
  intro l hl
  simp only [extensionLines, List.mem_append, List.mem_cons, List.not_mem_nil, or_false] at hl
  rcases hl with (rfl | hl) | rfl
  · have hfront : Flush "extension " := by decide
    exact Flush.legible (((((hfront.append _).append _).append _).append _).append _)
      (unbroken_texture.extensionOpening hunion ho)
  · exact legible_helperLines hd l hl
  · exact ⟨by decide, by decide⟩

omit hd in
theorem legible_classLines {v : Variant} (hv : VariantTexts Unbroken v) :
    ∀ l ∈ classLines d.name v, Legible l := by
  have hunion : Unbroken d.name.toList := unbroken_texture.name hname
  have htype : Unbroken v.typeName.toList := unbroken_texture.name hv.typeName
  have hconst : Flush "const " := by decide
  intro l hl
  simp only [classLines, List.mem_append, List.mem_cons, List.not_mem_nil, or_false] at hl
  rcases hl with (rfl | hl) | rfl | rfl | rfl | rfl
  · have hfront : Flush "final class " := by decide
    refine Flush.legible ((((hfront.append _).append _).append _).append _) ?_
    exact unbroken_texture.text (unbroken_texture.text (unbroken_texture.text (unbroken_texture.text
      (by decide) htype) (by decide)) hunion) (by decide)
  · split at hl
    · rw [List.mem_singleton.1 hl]
      exact Flush.legible ((hconst.append _).append _)
        (unbroken_texture.text (unbroken_texture.text (by decide) htype) (by decide))
    · simp only [List.mem_append, List.mem_map, List.mem_cons, List.not_mem_nil, or_false] at hl
      rcases hl with ⟨p, hp, rfl⟩ | rfl | rfl
      · exact Flush.legible (((by decide : Flush "final ").append _).append _)
          (unbroken_texture.text (unbroken_texture.text (by decide)
            (unbroken_texture.typed (hv.types p hp) (hv.names p hp))) (by decide))
      · exact legible_blank
      · refine Flush.legible ((((hconst.append _).append _).append _).append _) ?_
        exact unbroken_texture.text (unbroken_texture.text (unbroken_texture.text (unbroken_texture.text
          (by decide) htype) (by decide)) (unbroken_texture.parameterList fun p hp =>
            unbroken_texture.initialising (hv.names p hp) (hv.defaults p hp))) (by decide)
  · exact legible_blank
  · exact ⟨by decide, by decide⟩
  · refine Flush.legible (((by decide : Flush "List<Object?> get props => [").append _).append _) ?_
    exact unbroken_texture.text (unbroken_texture.text (by decide) (unbroken_texture.commas_map
      fun p hp => unbroken_texture.name (hv.names p hp))) (by decide)
  · exact ⟨by decide, by decide⟩

/-- **Every line of generated code can be read back** as long as no type, no default and no end of
the extension's name holds a line end. -/
theorem legible_codeLines (ho : Unbroken o.helperSuffix.toList) :
    ∀ l ∈ codeLines o d, Legible l := by
  have himport : ∀ l ∈ importLines o, Legible l := by
    unfold importLines
    intro l hl
    split at hl
    · rcases List.mem_cons.1 hl with rfl | hl
      · exact ⟨by decide, by decide⟩
      · rw [List.mem_singleton.1 hl]
        exact legible_blank
    · cases hl
  intro l hl
  simp only [codeLines, List.mem_append, List.mem_cons, List.mem_flatMap, List.not_mem_nil,
    or_false] at hl
  rcases hl with (((hl | hl) | rfl) | hl) | ⟨v, hv, rfl | hl⟩
  · exact himport l hl
  · exact legible_sealedLines hd hname l hl
  · exact legible_blank
  · exact legible_extensionLines hd hname ho l hl
  · exact legible_blank
  · exact legible_classLines hname (hd v hv) l hl

end

end DartUnion.Output
