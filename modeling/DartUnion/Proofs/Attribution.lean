import DartUnion.Proofs.ReadDeclaration

/-!
# Whose name and whose factories

A union takes its name from the first header of the text and its variants from every factory that
can be read. The name ends where the characters of a union's name end, though the identifier in the
header may go on with `_` or `$`. A factory is read whatever it is qualified with, so one of another
class counts as well.

* `Header`, `FirstHeader`: the word `class`, a space and a capital, wherever they stand.
* `Qualified`: the fragment starts `factory union.label(`.
* `OwnsVariants`: every variant comes from a factory that is qualified with the name of the union.

Results:
* `firstHeader_of_findUnionName?`: **the name is what letters and digits the first header goes on
  with.**
* `qualified_of_variant?`, `variant?_qualifier`: each variant comes from a factory that is qualified
  with some name, and which name has no influence on the variant.
* `ofSource_attribution_iff`: **the name is the identifier in the header exactly when no `_` or `$`
  stands behind it, and the variants are the union's own exactly when every factory that is read is
  qualified with that name.**
-/

namespace DartUnion

open Text Dart Source

namespace Source

/-! ## Headers -/

/-- In `s`, which stands behind `before`, the word `class`, a space and a capital part `front` from
`behind`. -/
structure Header (before : Option Char) (s front behind : List Char) : Prop where
  boundary : noWordChar (front.getLast?.or before) = true
  text : ∃ space, IsSpace space ∧ s = front ++ ("class".toList ++ (space ++ behind))
  capital : ∃ c, behind.head? = some c ∧ c.isUpper = true

/-- What stands behind the first header of a text. -/
def FirstHeader (s behind : List Char) : Prop :=
  ∃ front, Header none s front behind ∧
    ∀ front' behind', Header none s front' behind' → front.length ≤ front'.length

section

variable {before : Option Char} {s behind : List Char}

/-- No blank stands between the space and the name. -/
theorem Header.isBlank_eq_false {front : List Char} (h : Header before s front behind) {c : Char}
    (hc : behind.head? = some c) : isBlank c = false := by
  obtain ⟨d, hd, hupper⟩ := h.capital
  obtain rfl : c = d := Option.some.inj (hc.symm.trans hd)
  exact isBlank_of_next (identifier_start_next (by simp [identifier, isAlpha_of_isUpper hupper]))

/-- There is one first header. -/
theorem FirstHeader.unique {behind' : List Char} (h : FirstHeader s behind)
    (h' : FirstHeader s behind') : behind = behind' := by
  obtain ⟨front, hheader, hfirst⟩ := h
  obtain ⟨front', hheader', hfirst'⟩ := h'
  have hlength : front.length = front'.length :=
    Nat.le_antisymm (hfirst _ _ hheader') (hfirst' _ _ hheader)
  obtain ⟨space, hs, ht⟩ := hheader.text
  obtain ⟨space', hs', ht'⟩ := hheader'.text
  obtain ⟨-, hclass⟩ := List.append_inj (ht.symm.trans ht') hlength
  have htrim := congrArg trimStart (List.append_cancel_left hclass)
  rwa [trimStart_of_isGap hs.1, trimStart_of_isGap hs'.1,
    trimStart_of_head?_ne fun _ => hheader.isBlank_eq_false,
    trimStart_of_head?_ne fun _ => hheader'.isBlank_eq_false] at htrim

/-- A header in front is read. -/
theorem Header.headerName? (h : Header before s [] behind) : headerName? s ≠ none := by
  have hblank := fun c => h.isBlank_eq_false (c := c)
  obtain ⟨space, hs, rfl⟩ := h.text
  obtain ⟨c, hc, hupper⟩ := h.capital
  obtain ⟨t, rfl⟩ := List.head?_eq_some_iff.1 hc
  have hblanks : dropBlanks? (space ++ c :: t) = some (c :: t) :=
    dropBlanks?_of_isSpace hs hblank
  unfold Source.headerName?
  rw [List.nil_append, dropWord?_append]
  simp [hblanks, NameClass.scan?, unionName, hupper]

/-- What is read in front is a header. -/
theorem header_of_headerName? {name : List Char} (hb : noWordChar before = true)
    (h : headerName? s = some name) :
    ∃ behind, Header before s [] behind ∧ name = behind.takeWhile Char.isAlphanum := by
  unfold headerName? at h
  simp only [Option.bind_eq_bind, Option.bind_eq_some_iff, Prod.exists] at h
  obtain ⟨s₁, h₁, s₂, h₂, name', rest, hscan, hname⟩ := h
  obtain rfl := Option.some.inj hname
  obtain ⟨space, hs, rfl⟩ := eq_of_dropBlanks? h₂
  have htext : s = "class".toList ++ (space ++ s₂) := eq_append_of_dropWord? h₁
  cases s₂ with
  | nil => cases hscan
  | cons c t =>
    rw [NameClass.scan?] at hscan
    split at hscan
    · next hupper =>
      have hc : c.isAlphanum = true := by
        simp [Char.isAlphanum, isAlpha_of_isUpper hupper]
      refine ⟨c :: t, ⟨hb, ⟨space, hs, htext⟩, c, rfl, hupper⟩, ?_⟩
      rw [List.takeWhile_cons_of_pos hc]
      exact (Prod.mk.inj (Option.some.inj hscan)).1.symm
    · cases hscan

/-- A header behind one more character. -/
theorem header_cons_iff {c : Char} {front : List Char} :
    Header before (c :: s) (c :: front) behind ↔ Header (some c) s front behind := by
  constructor
  · rintro ⟨hb, ⟨space, hs, ht⟩, hc⟩
    rw [getLast?_cons_or] at hb
    exact ⟨hb, ⟨space, hs, (List.cons.inj ht).2⟩, hc⟩
  · rintro ⟨hb, ⟨space, hs, rfl⟩, hc⟩
    rw [← getLast?_cons_or] at hb
    exact ⟨hb, ⟨space, hs, rfl⟩, hc⟩

/-- The search for a header stops at the first. -/
theorem eq_of_findUnionName? {name : List Char} (h : findUnionName? before s = some name) :
    ∃ front behind, Header before s front behind ∧ name = behind.takeWhile Char.isAlphanum ∧
      ∀ front' behind', Header before s front' behind' → front.length ≤ front'.length := by
  induction s generalizing before with
  | nil => cases h
  | cons c s ih =>
    rw [findUnionName?] at h
    split at h
    · next other hother =>
      obtain rfl := Option.some.inj h
      split at hother
      · next hb =>
        obtain ⟨behind, hheader, hname⟩ := header_of_headerName? hb hother
        exact ⟨[], behind, hheader, hname, fun _ _ _ => Nat.zero_le _⟩
      · cases hother
    · next hnone =>
      obtain ⟨front, behind, hheader, hname, hfirst⟩ := ih h
      refine ⟨c :: front, behind, header_cons_iff.2 hheader, hname, fun front' behind' h' => ?_⟩
      cases front' with
      | nil =>
        have hb : noWordChar before = true := h'.boundary
        rw [if_pos hb] at hnone
        exact absurd hnone h'.headerName?
      | cons d front' =>
        obtain ⟨space, -, ht⟩ := h'.text
        obtain rfl : c = d := (List.cons.inj ht).1
        exact Nat.succ_le_succ (hfirst front' behind' (header_cons_iff.1 h'))

/-- **The name is what letters and digits the first header goes on with.** -/
theorem firstHeader_of_findUnionName? {name : List Char} (h : findUnionName? none s = some name) :
    ∃ behind, FirstHeader s behind ∧ name = behind.takeWhile Char.isAlphanum := by
  obtain ⟨front, behind, hheader, hname, hfirst⟩ := eq_of_findUnionName? h
  exact ⟨behind, ⟨front, hheader, hfirst⟩, hname⟩

end

/-- The run of letters and digits is the whole identifier unless `_` or `$` stands behind it. -/
theorem takeWhile_eq_identifier_iff (s : List Char) :
    s.takeWhile Char.isAlphanum = s.takeWhile identifier.next ↔
      ∀ c, (s.dropWhile Char.isAlphanum).head? = some c → c ≠ '_' ∧ c ≠ '$' := by
  induction s with
  | nil => simp
  | cons c s ih =>
    by_cases hc : c.isAlphanum = true
    · have hnext : identifier.next c = true := by simp [identifier, hc]
      simp [hc, hnext, ih]
    · simp [List.takeWhile_cons, hc, identifier]

/-! ## Qualifiers -/

/-- The fragment starts `factory union.label(`. -/
def Qualified (union label : String) (fragment : List Char) : Prop :=
  identifier.accepts union.toList = true ∧
    ∃ head behind, HeadWritten union label head ∧ trim fragment = head ++ '(' :: behind

/-- The name between the word `factory` and the label. -/
def qualifier? (fragment : List Char) : Option (List Char) := do
  let s ← dropWord? "factory".toList (trim fragment)
  let s ← dropBlanks? s
  let (union, _) ← identifier.scan? s
  return union

theorem Qualified.qualifier?_eq {union label : String} {fragment : List Char}
    (h : Qualified union label fragment) : qualifier? fragment = some union.toList := by
  obtain ⟨hu, _, behind, ⟨hs, hg, -, -⟩, htrim⟩ := h
  unfold qualifier?
  simp only [htrim, List.append_assoc, dropWord?_append, List.cons_append]
  rw [Option.bind_eq_bind, Option.bind_some, dropBlanks?_of_isSpace hs, Option.bind_eq_bind,
    Option.bind_some, scan?_gap hu hg rfl]
  · rfl
  · intro c hc
    rw [← trimStart_name hu] at hc
    exact head?_trimStart hc

/-- **Every variant comes from a qualified factory**, with some name in front of its label. -/
theorem qualified_of_variant? {fragment : List Char} {v : Variant}
    (h : variant? fragment = some v) : ∃ union, Qualified union v.label fragment := by
  unfold variant? at h
  simp only [Option.bind_eq_bind, Option.bind_eq_some_iff, Prod.exists] at h
  obtain ⟨case, -, label, behind, hhead, h⟩ := h
  obtain ⟨-, union, head, hunion, hwritten, htrim⟩ := eq_of_head? hhead
  rw [← Option.some.inj h]
  refine ⟨String.ofList union, ?_, head, behind, hwritten, htrim⟩
  rwa [String.toList_ofList]

/-- Whether a factory that is read is qualified with a name can be read off. -/
theorem qualified_iff {fragment : List Char} {v : Variant} (h : variant? fragment = some v)
    {union : String} :
    Qualified union v.label fragment ↔ qualifier? fragment = some union.toList := by
  refine ⟨Qualified.qualifier?_eq, fun hq => ?_⟩
  obtain ⟨union', hq'⟩ := qualified_of_variant? h
  obtain rfl : union' = union :=
    String.toList_inj.1 (Option.some.inj (hq'.qualifier?_eq.symm.trans hq))
  exact hq'

/-- No redirection is found in front of the first `=`. -/
theorem redirectedCase?_front {a : List Char} (h : '=' ∉ a) (s : List Char) :
    redirectedCase? (a ++ s) = redirectedCase? s := by
  induction a with
  | nil => rfl
  | cons c a ih =>
    obtain ⟨hc, ha⟩ := not_or.1 (fun hm => h (List.mem_cons.2 hm))
    rw [List.cons_append, redirectedCase?, if_neg (Ne.symm hc)]
    exact ih ha

theorem HeadWritten.not_mem {union label : String} (hu : identifier.accepts union.toList = true)
    (hl : identifier.accepts label.toList = true) {head : List Char}
    (h : HeadWritten union label head) : '=' ∉ head := by
  obtain ⟨hs, h₁, h₂, h₃⟩ := h
  have hunion : '=' ∉ union.toList := fun hm => ne_of_next (next_of_accepts hu hm) rfl rfl
  have hlabel : '=' ∉ label.toList := fun hm => ne_of_next (next_of_accepts hl hm) rfl rfl
  simp [hs.1.not_mem, h₁.not_mem, h₂.not_mem, h₃.not_mem, hunion, hlabel, isBlank]

/-- **The name in front of the label has no influence** on the variant of a factory. -/
theorem variant?_qualifier {union union' label : String}
    (hu : identifier.accepts union.toList = true) (hu' : identifier.accepts union'.toList = true)
    (hl : identifier.accepts label.toList = true) {head head' : List Char}
    (h : HeadWritten union label head) (h' : HeadWritten union' label head') (s : List Char) :
    variant? (head ++ '(' :: s ++ [';']) = variant? (head' ++ '(' :: s ++ [';']) := by
  have htrim := trim_of_isTrimmed (isTrimmed_headWritten h ('(' :: s))
  have htrim' := trim_of_isTrimmed (isTrimmed_headWritten h' ('(' :: s))
  simp only [List.append_assoc, List.cons_append] at htrim htrim' ⊢
  unfold variant?
  simp only [htrim, htrim', head?_headWritten hu hl h, head?_headWritten hu' hl h',
    redirectedCase?_front (h.not_mem hu hl), redirectedCase?_front (h'.not_mem hu' hl)]

end Source

/-! ## Declarations -/

/-- Every variant comes from a factory in the text that is qualified with the name of the union. -/
def Declaration.OwnsVariants (d : Declaration) (s : List Char) : Prop :=
  ∀ v ∈ d.variants, ∃ fragment ∈ fragments (oneLine s), variant? fragment = some v ∧
    Qualified d.name v.label fragment

/-- No two elements give one result when the results are distinct. -/
theorem eq_of_nodup_filterMap {α β : Type} {f : α → Option β} {l : List α}
    (h : (l.filterMap f).Nodup) {a a' : α} (ha : a ∈ l) (ha' : a' ∈ l) {b : β}
    (hb : f a = some b) (hb' : f a' = some b) : a = a' := by
  induction l with
  | nil => cases ha
  | cons c l ih =>
    have hmem : ∀ {a}, a ∈ l → f a = some b → b ∈ l.filterMap f :=
      fun ha hb => List.mem_filterMap.2 ⟨_, ha, hb⟩
    rcases List.mem_cons.1 ha with rfl | hl
    · rcases List.mem_cons.1 ha' with rfl | hl'
      · rfl
      · rw [List.filterMap_cons_some hb] at h
        exact absurd (hmem hl' hb') (List.nodup_cons.1 h).1
    · rcases List.mem_cons.1 ha' with rfl | hl'
      · rw [List.filterMap_cons_some hb'] at h
        exact absurd (hmem hl hb) (List.nodup_cons.1 h).1
      · exact ih (h.sublist ((List.sublist_cons_self c l).filterMap f)) hl hl'

/-- The variants are the union's own when every factory that is read is qualified with its name, and
only then. -/
theorem ownsVariants_iff {s : List Char} {d : Declaration} (h : union? s = some d)
    (hc : d.check = .ok ()) : d.OwnsVariants s ↔
      ∀ fragment ∈ fragments (oneLine s), ∀ v, variant? fragment = some v →
        Qualified d.name v.label fragment := by
  obtain ⟨hlabels, -⟩ := check_eq_ok_iff_namesDistinct.1 hc
  obtain ⟨name, -, rfl⟩ := Option.map_eq_some_iff.1 h
  constructor
  · intro howns fragment hf v hv
    obtain ⟨fragment', hf', hv', hq⟩ := howns v (List.mem_filterMap.2 ⟨fragment, hf, hv⟩)
    have hnodup : (variants s).Nodup :=
      List.Pairwise.of_map Variant.label (fun _ _ hne he => hne (congrArg _ he)) hlabels
    rwa [eq_of_nodup_filterMap hnodup hf hf' hv hv']
  · intro hall v hv
    obtain ⟨fragment, hf, hread⟩ := List.mem_filterMap.1 hv
    exact ⟨fragment, hf, hread, hall fragment hf v hread⟩

/-- **The name is the identifier in the first header exactly when no `_` or `$` stands behind it, and
the variants are the union's own exactly when every factory that is read is qualified with that
name.** In every case the name is what letters and digits the header goes on with, and each factory
that is read is qualified with some name. -/
theorem ofSource_attribution_iff {source : String} {d : Declaration}
    (h : Declaration.ofSource source = .ok d) :
    ∃ behind, FirstHeader (stripComments source.toList) behind ∧
      d.name.toList = behind.takeWhile Char.isAlphanum ∧
      (d.name.toList = behind.takeWhile identifier.next ↔
        ∀ c, (behind.dropWhile Char.isAlphanum).head? = some c → c ≠ '_' ∧ c ≠ '$') ∧
      (∀ v ∈ d.variants, ∃ fragment ∈ fragments (oneLine (stripComments source.toList)),
        variant? fragment = some v ∧ ∃ union, Qualified union v.label fragment) ∧
      (d.OwnsVariants (stripComments source.toList) ↔
        ∀ fragment ∈ fragments (oneLine (stripComments source.toList)), ∀ v,
          variant? fragment = some v → Qualified d.name v.label fragment) := by
  obtain ⟨hunion, hcheck⟩ := eq_of_ofSource h
  have howns := ownsVariants_iff hunion hcheck
  obtain ⟨name, hname, rfl⟩ := Option.map_eq_some_iff.1 hunion
  obtain ⟨behind, hfirst, rfl⟩ := firstHeader_of_findUnionName? hname
  simp only [String.toList_ofList] at howns ⊢
  refine ⟨behind, hfirst, rfl, takeWhile_eq_identifier_iff behind, fun v hv => ?_, howns⟩
  obtain ⟨fragment, hf, hread⟩ := List.mem_filterMap.1 hv
  exact ⟨fragment, hf, hread, qualified_of_variant? hread⟩

/-- Two factories of the class itself, behind a comment with one that is not. -/
theorem ofSource_attribution_iff_own :
    Declaration.ofSource
        "class A \x7b /* factory B.z() = Z; */ factory A.x() = X;\nfactory A . y(int i) => Y(); \x7d" =
      .ok ⟨"A", [⟨"X", "x", []⟩, ⟨"Y", "y", [⟨"i", "int", none, .positional⟩]⟩]⟩ ∧
    Declaration.OwnsVariants
      ⟨"A", [⟨"X", "x", []⟩, ⟨"Y", "y", [⟨"i", "int", none, .positional⟩]⟩]⟩
      (stripComments "class A \x7b /* factory B.z() = Z; */ factory A.x() = X;\nfactory A . y(int i) => Y(); \x7d".toList) := by
  have hread : Declaration.ofSource
        "class A \x7b /* factory B.z() = Z; */ factory A.x() = X;\nfactory A . y(int i) => Y(); \x7d" =
      .ok ⟨"A", [⟨"X", "x", []⟩, ⟨"Y", "y", [⟨"i", "int", none, .positional⟩]⟩]⟩ :=
    eq_ok_of_toOption (by decide +kernel)
  have hqualifiers : ∀ fragment ∈ fragments (oneLine (stripComments
      "class A \x7b /* factory B.z() = Z; */ factory A.x() = X;\nfactory A . y(int i) => Y(); \x7d".toList)),
      qualifier? fragment = some "A".toList := by
    decide +kernel
  obtain ⟨behind, -, -, -, -, howns⟩ := ofSource_attribution_iff hread
  exact ⟨hread, howns.2 fun fragment hf v hv => (qualified_iff hv).2 (hqualifiers fragment hf)⟩

/-- **A factory of another class is taken for one of the union, and an identifier is cut at its first
`_`**: the union of the first source is `A` with the case of `B.y` for its own, and that of the second
is `A` though its header says `A_b`. -/
theorem ofSource_other_class :
    (Declaration.ofSource "class A \x7b factory A.x() = X; \x7d class B \x7b factory B.y() = Y; \x7d" =
        .ok ⟨"A", [⟨"X", "x", []⟩, ⟨"Y", "y", []⟩]⟩ ∧
      ¬ Declaration.OwnsVariants ⟨"A", [⟨"X", "x", []⟩, ⟨"Y", "y", []⟩]⟩ (stripComments
        "class A \x7b factory A.x() = X; \x7d class B \x7b factory B.y() = Y; \x7d".toList)) ∧
    Declaration.ofSource "class A_b \x7b\x7d" = .ok ⟨"A", []⟩ ∧
      FirstHeader (stripComments "class A_b \x7b\x7d".toList) "A_b \x7b\x7d".toList ∧
      "A_b \x7b\x7d".toList.takeWhile identifier.next = "A_b".toList := by
  refine ⟨⟨eq_ok_of_toOption (by decide +kernel), fun howns => ?_⟩,
    eq_ok_of_toOption (by decide +kernel), ⟨[], ?_, fun _ _ _ => Nat.zero_le _⟩, by decide⟩
  · have hother : ∀ fragment ∈ fragments (oneLine (stripComments
        "class A \x7b factory A.x() = X; \x7d class B \x7b factory B.y() = Y; \x7d".toList)),
        variant? fragment = some ⟨"Y", "y", []⟩ → qualifier? fragment ≠ some "A".toList := by
      decide +kernel
    obtain ⟨fragment, hf, hread, hq⟩ := howns ⟨"Y", "y", []⟩ (by simp)
    exact hother fragment hf hread hq.qualifier?_eq
  · exact ⟨rfl, ⟨[' '], by decide, by decide +kernel⟩, 'A', rfl, rfl⟩

end DartUnion
