import DartUnion.Proofs.Statements

/-!
# Where types and defaults come from

A parameter keeps two texts of the source as they are written, its type and its default
(`Parameter.Keeps`). Every stage of the reading only cuts: a fragment is a part of its statement, a
parameter list a part of the fragment, a piece a part of the list, and a text that is kept a part of
the piece. A statement is on one line and has no semicolon within it, so no text that is kept has
either.

* `eq_of_dropAnnotation?`, `eq_of_typeAndName?`, `eq_of_parameter?`: what a piece was when a parameter
  is read from it.
* `sublist_of_parameter?`: a text that is kept is a part of its piece.
* `sublist_of_mem_parametersFrom`: a text that is kept is a part of the parameter list.
* `plain_of_mem_variants`: **no text that is kept holds a line end or a semicolon.**
-/

namespace DartUnion

/-- The texts that a parameter keeps as they are written. -/
inductive Parameter.Keeps (p : Parameter) : List Char → Prop
  | type : p.Keeps p.typeExpression.toList
  | default {d : String} : p.defaultValue = some d → p.Keeps d.toList

end DartUnion

namespace DartUnion.Source

open DartUnion.Text DartUnion.Dart

/-! ## Pieces -/

theorem trimStart_suffix (s : List Char) : trimStart s <:+ s := List.dropWhile_suffix _

theorem sublist_trim (s : List Char) : (trim s).Sublist s := by
  obtain ⟨front, back, -, -, hs⟩ := eq_gaps_trim s
  have h := (List.sublist_append_left (trim s) back).trans (List.sublist_append_right front _)
  rwa [← hs] at h

theorem dropWord?_suffix {word s t : List Char} (h : dropWord? word s = some t) : t <:+ s :=
  ⟨word, (eq_append_of_dropWord? h).symm⟩

theorem dropBlanks?_suffix {s t : List Char} (h : dropBlanks? s = some t) : t <:+ s := by
  obtain ⟨space, -, rfl⟩ := eq_of_dropBlanks? h
  exact List.suffix_append space t

/-- **What an annotation was** that is dropped: a name, and perhaps arguments up to the first bracket
that closes. -/
theorem eq_of_dropAnnotation? {s t : List Char} (h : dropAnnotation? s = some t) :
    ∃ name behind, annotationName.accepts name = true ∧ s = '@' :: (name ++ behind) ∧
      (t = trimStart behind ∨
        ∃ args u, ')' ∉ args ∧ behind = '(' :: (args ++ ')' :: u) ∧ t = trimStart u) := by
  unfold dropAnnotation? at h
  split at h
  · next s =>
    simp only [Option.bind_eq_bind, Option.bind_eq_some_iff, Prod.exists] at h
    obtain ⟨name, behind, hscan, h⟩ := h
    obtain ⟨hname, hs⟩ := NameClass.scan?_eq_some hscan
    refine ⟨name, behind, hname, by rw [hs], ?_⟩
    have hbehind := Option.some.inj h
    rw [← hbehind]
    split
    · next u =>
      split
      · next rest hrest =>
        have hparts := List.takeWhile_append_dropWhile (p := (· != ')')) (l := u)
        rw [hrest] at hparts
        refine .inr ⟨u.takeWhile (· != ')'), rest, fun hm => ?_, by rw [hparts], rfl⟩
        have := List.all_eq_true.1 List.all_takeWhile _ hm
        exact absurd this (by decide)
      · exact .inl rfl
    · exact .inl rfl
  · cases h

theorem dropAnnotation?_suffix {s t : List Char} (h : dropAnnotation? s = some t) : t <:+ s := by
  obtain ⟨name, behind, -, rfl, ht⟩ := eq_of_dropAnnotation? h
  have hbehind : behind <:+ '@' :: (name ++ behind) :=
    (List.suffix_append name behind).trans (List.suffix_cons '@' _)
  rcases ht with rfl | ⟨args, u, -, rfl, rfl⟩
  · exact (trimStart_suffix behind).trans hbehind
  · have hu : u <:+ '(' :: (args ++ ')' :: u) :=
      (List.suffix_cons ')' u).trans ((List.suffix_append args _).trans (List.suffix_cons '(' _))
    exact (trimStart_suffix u).trans (hu.trans hbehind)

theorem dropAnnotations_suffix (s : List Char) : dropAnnotations s <:+ s := by
  fun_induction dropAnnotations s with
  | case1 s t h ih => exact ih.trans (dropAnnotation?_suffix h)
  | case2 s h => exact List.suffix_refl s

theorem dropModifier_suffix (modifier : String) (s : List Char) : dropModifier modifier s <:+ s := by
  unfold dropModifier
  cases h : dropModifier? modifier s with
  | none => exact List.suffix_refl s
  | some t =>
    obtain ⟨u, hu, ht⟩ := Option.bind_eq_some_iff.1 h
    exact (dropBlanks?_suffix ht).trans (dropWord?_suffix hu)

/-- Nothing of a text is lost when it is split at an `=`. -/
theorem eq_of_splitDefault? {depth : Nat} {before : Option Char} {s x y : List Char}
    (h : splitDefault? depth before s = some (x, y)) : s = x ++ '=' :: y := by
  induction s generalizing depth before x y with
  | nil => cases h
  | cons c s ih =>
    rw [splitDefault?] at h
    split at h
    · next hc =>
      simp only [Bool.and_eq_true, decide_eq_true_eq] at hc
      obtain ⟨rfl, rfl⟩ := Prod.mk.inj (Option.some.inj h)
      rw [hc.1.1.1.1]
      rfl
    · obtain ⟨r, hr, he⟩ := Option.map_eq_some_iff.1 h
      obtain ⟨rfl, rfl⟩ := Prod.mk.inj he
      rw [ih hr]
      rfl

/-- What is read as a type and a name stands around a gap. -/
theorem eq_of_typeAndName? {s type name : List Char} (h : typeAndName? s = some (type, name)) :
    (∃ gap, IsGap gap ∧ s = type ++ gap ++ name) ∧ identifier.accepts name = true ∧ type ≠ [] ∧
      IsTrimmed type := by
  simp only [typeAndName?] at h
  split at h
  · next hc =>
    simp only [Bool.and_eq_true] at hc
    obtain ⟨⟨haccepts, hhead⟩, -⟩ := hc
    obtain ⟨htype, hname⟩ := Prod.mk.inj (Option.some.inj h)
    rw [hname] at haccepts
    rw [htype] at hhead
    refine ⟨⟨(((s.reverse.dropWhile (!isBlank ·))).takeWhile isBlank).reverse, fun c hc => ?_, ?_⟩,
      haccepts, ?_, ?_⟩
    · exact List.all_eq_true.1 (List.all_takeWhile) c (List.mem_reverse.1 hc)
    · rw [← htype, ← hname, ← List.reverse_append, List.takeWhile_append_dropWhile,
        ← List.reverse_append, List.takeWhile_append_dropWhile, List.reverse_reverse]
    · rintro rfl
      cases hhead
    · constructor
      · intro c hc
        rw [hc] at hhead
        simpa using hhead
      · intro c hc
        rw [← htype, List.getLast?_reverse] at hc
        exact head?_trimStart hc
  · cases h

/-- What is left of a piece without the annotations and modifiers in front. -/
def Piece.unmodified (p : Piece) : List Char :=
  dropModifier "final" (dropModifier "covariant" (dropModifier "required"
    (dropAnnotations (trim p.text))))

theorem unmodified_suffix (p : Piece) : p.unmodified <:+ trim p.text :=
  (dropModifier_suffix _ _).trans <| (dropModifier_suffix _ _).trans <|
    (dropModifier_suffix _ _).trans (dropAnnotations_suffix _)

/-- **What a piece was** when a parameter is read from it: behind annotations and modifiers a
declaration, perhaps with a default behind an `=`. -/
theorem eq_of_parameter? {p : Piece} {q : Parameter} (h : p.parameter? = some q) :
    ∃ declared value : List Char,
      (declared = p.unmodified ∧ value = [] ∨
        ∃ x y, p.unmodified = x ++ '=' :: y ∧ declared = trim x ∧ value = trim y) ∧
      typeAndName? declared = some (q.typeExpression.toList, q.name.toList) ∧
      q.defaultValue = if value.isEmpty then none else some (String.ofList value) := by
  unfold Piece.parameter? at h
  simp only at h
  rw [← Piece.unmodified] at h
  cases hsplit : splitDefault? 0 none p.unmodified with
  | none =>
    rw [hsplit] at h
    obtain ⟨⟨type, name⟩, hread, hq⟩ := Option.bind_eq_some_iff.1 h
    rw [← Option.some.inj hq]
    simp only [String.toList_ofList]
    exact ⟨p.unmodified, [], .inl ⟨rfl, rfl⟩, hread, rfl⟩
  | some sides =>
    obtain ⟨x, y⟩ := sides
    rw [hsplit] at h
    obtain ⟨⟨type, name⟩, hread, hq⟩ := Option.bind_eq_some_iff.1 h
    rw [← Option.some.inj hq]
    simp only [String.toList_ofList]
    exact ⟨trim x, trim y, .inr ⟨x, y, eq_of_splitDefault? hsplit, rfl, rfl⟩, hread, rfl⟩

/-- The default that is kept is the value behind the `=`, and it is not empty. -/
theorem eq_of_defaultValue {q : Parameter} {value : List Char} {d : String}
    (hq : q.defaultValue = if value.isEmpty then none else some (String.ofList value))
    (hd : q.defaultValue = some d) : d.toList = value ∧ value ≠ [] := by
  rw [hq] at hd
  split at hd
  · cases hd
  · next hne =>
    rw [← Option.some.inj hd, String.toList_ofList]
    exact ⟨rfl, fun he => hne (List.isEmpty_iff.2 he)⟩

/-- **A text that is kept is a part of its piece.** -/
theorem sublist_of_parameter? {p : Piece} {q : Parameter} (h : p.parameter? = some q)
    {s : List Char} (hs : q.Keeps s) : s.Sublist p.text := by
  obtain ⟨declared, value, hparts, hread, hdefault⟩ := eq_of_parameter? h
  have hpiece : p.unmodified.Sublist p.text :=
    (unmodified_suffix p).sublist.trans (sublist_trim p.text)
  cases hs with
  | type =>
    obtain ⟨⟨gap, -, hdeclared⟩, -⟩ := eq_of_typeAndName? hread
    have htype : q.typeExpression.toList.Sublist declared := by
      rw [hdeclared, List.append_assoc]
      exact List.sublist_append_left _ _
    rcases hparts with ⟨rfl, -⟩ | ⟨x, y, hsides, rfl, -⟩
    · exact htype.trans hpiece
    · rw [hsides] at hpiece
      exact htype.trans ((sublist_trim x).trans ((List.sublist_append_left x _).trans hpiece))
  | @default d hd =>
    obtain ⟨rfl, hne⟩ := eq_of_defaultValue hdefault hd
    rcases hparts with ⟨-, hnil⟩ | ⟨x, y, hsides, -, hvalue⟩
    · exact absurd hnil hne
    · rw [hsides] at hpiece
      rw [hvalue]
      have hy : y.Sublist (x ++ '=' :: y) :=
        (List.sublist_cons_self '=' y).trans (List.sublist_append_right x ('=' :: y))
      exact (sublist_trim y).trans (hy.trans hpiece)

/-- A piece is a part of the list. -/
theorem sublist_of_mem_cutPieces {st : Scan} {s : List Char} {p : Piece}
    (h : p ∈ (cutPieces st s).1 :: (cutPieces st s).2) : p.text.Sublist s := by
  induction s generalizing st p with
  | nil =>
    rw [List.mem_singleton.1 h]
    exact List.nil_sublist []
  | cons c s ih =>
    rw [cutPieces] at h
    split at h
    · rcases List.mem_cons.1 h with rfl | h
      · exact List.nil_sublist _
      · exact (ih h).trans (List.sublist_cons_self c s)
    · rcases List.mem_cons.1 h with rfl | h
      · exact (ih List.mem_cons_self).cons_cons c
      · exact (ih (List.mem_cons_of_mem _ h)).trans (List.sublist_cons_self c s)

/-- **A text that is kept is a part of the parameter list.** -/
theorem sublist_of_mem_parametersFrom {st : Scan} {s : List Char} {p : Parameter}
    (h : p ∈ parametersFrom st s) {t : List Char} (ht : p.Keeps t) : t.Sublist s := by
  obtain ⟨piece, hpiece, hp⟩ := List.mem_filterMap.1 h
  exact (sublist_of_parameter? hp ht).trans (sublist_of_mem_cutPieces hpiece)

/-! ## Fragments -/

/-- What stands behind the opening bracket is an end of the fragment. -/
theorem head?_suffix {s label behind : List Char} (h : head? s = some (label, behind)) :
    behind <:+ s := by
  obtain ⟨-, -, head, -, -, rfl⟩ := eq_of_head? h
  exact (List.suffix_cons '(' behind).trans (List.suffix_append head _)

/-- The parameters of a fragment come from a list with a closing bracket behind it. -/
theorem mem_parameters_of_variant? {fragment : List Char} {v : Variant}
    (h : variant? fragment = some v) {p : Parameter} (hp : p ∈ v.parameters) :
    ∃ before list behind, fragment = before ++ (list ++ ')' :: behind) ∧ p ∈ parameters list := by
  unfold variant? at h
  simp only [Option.bind_eq_bind, Option.bind_eq_some_iff, Prod.exists] at h
  obtain ⟨name, -, label, behind, hhead, h⟩ := h
  rw [← Option.some.inj h] at hp
  cases hlist : beforeClosing? 0 behind with
  | none =>
    rw [hlist] at hp
    cases hp
  | some list =>
    rw [hlist] at hp
    obtain ⟨rest, hrest⟩ := beforeClosing?_eq_some hlist
    obtain ⟨before, hbefore⟩ := head?_suffix hhead
    obtain ⟨front, back, -, -, htrim⟩ := eq_gaps_trim fragment
    refine ⟨front ++ before, list, rest ++ back, ?_, hp⟩
    rw [← hrest] at hbefore
    rw [← hbefore] at htrim
    simpa only [List.append_assoc, List.cons_append] using htrim

/-! ## Statements -/

/-- No line end is left on one line. -/
theorem not_mem_oneLine {c : Char} (hc : c = '\n' ∨ c = '\r') (s : List Char) : c ∉ oneLine s := by
  intro hm
  obtain ⟨d, -, hd⟩ := List.mem_map.1 hm
  split at hd
  · rcases hc with rfl | rfl <;> exact absurd hd (by decide)
  · next hn => rcases hc with rfl | rfl <;> exact hn (by simp [hd])

/-- **No text that is kept holds a line end or a semicolon.** -/
theorem plain_of_mem_variants {s : List Char} {v : Variant} (hv : v ∈ variants s) {p : Parameter}
    (hp : p ∈ v.parameters) {t : List Char} (ht : p.Keeps t) :
    ∀ c ∈ t, c ≠ '\n' ∧ c ≠ '\r' ∧ c ≠ ';' := by
  obtain ⟨fragment, hfragment, hvariant⟩ := List.mem_filterMap.1 hv
  obtain ⟨statement, hstatement, hfrom⟩ := List.mem_filterMap.1 hfragment
  obtain ⟨u, hu, rfl⟩ := Option.map_eq_some_iff.1 hfrom
  obtain ⟨before, list, behind, he, hlist⟩ := mem_parameters_of_variant? hvariant hp
  rw [parameters_eq] at hlist
  have hpart := (sublist_of_mem_parametersFrom hlist ht).subset
  have hsuffix := (fromWord?_isSuffix hu).1.subset
  -- the semicolon of the fragment stands behind the bracket that closes the list
  have hmem : ∀ c ∈ t, c ∈ u := by
    intro c hc
    have hc := List.mem_append_right before (hpart hc)
    rw [← List.append_assoc] at he
    rcases List.append_eq_append_iff.1 he with ⟨k, hk, hend⟩ | ⟨k, hk, -⟩
    · cases k with
      | nil => exact absurd (List.cons.inj hend).1 (by decide)
      | cons e k => exact absurd (List.cons.inj hend).2.symm (by simp)
    · rw [hk]
      exact List.mem_append_left k hc
  obtain ⟨hclosed, front, rest, hs⟩ := eq_of_mem_endedBy hstatement
  have hline : ∀ c ∈ statement, c ∈ oneLine s := fun c hc => by
    rw [hs]
    exact List.mem_append_right front (List.mem_append_left _ hc)
  intro c hc
  refine ⟨?_, ?_, ?_⟩
  · rintro rfl
    exact not_mem_oneLine (.inl rfl) s (hline _ (hsuffix (hmem _ hc)))
  · rintro rfl
    exact not_mem_oneLine (.inr rfl) s (hline _ (hsuffix (hmem _ hc)))
  · rintro rfl
    exact hclosed (hsuffix (hmem _ hc))

end DartUnion.Source
