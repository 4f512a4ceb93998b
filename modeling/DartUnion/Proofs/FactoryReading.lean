import DartUnion.Proofs.ParameterReading
import DartUnion.Source.Factory

/-!
# Reading a written factory

A factory is read from both ends. Its redirection is found behind the last `=`: what
`caseBehind?` accepts holds no further `=`, so the earlier ones, those of the defaults among them,
all fail. The label is read from the front, and the parameter list lies between the bracket behind
the label and the bracket that closes it.

Results:
* `caseBehind?_written`, `eq_of_caseBehind?`: **a case is read exactly from a written redirection.**
* `redirectedCase?_append`: whatever stands in front, the last redirection counts.
* `head?_headWritten`, `eq_of_head?`: **a label is read exactly from a written head.**
* `variant?_written`: **a written factory is read as itself.**
-/

namespace DartUnion.Source

open DartUnion.Text DartUnion.Dart

/-! ## Blanks and marks -/

/-- A text is a gap and the text without it. -/
theorem eq_gap_append_trimStart (s : List Char) : ∃ gap, IsGap gap ∧ s = gap ++ trimStart s :=
  ⟨s.takeWhile isBlank, List.all_eq_true.1 List.all_takeWhile,
    List.takeWhile_append_dropWhile.symm⟩

/-- What is dropped is a space, and no blank is left behind it. -/
theorem eq_of_dropBlanks? {s t : List Char} (h : dropBlanks? s = some t) :
    ∃ space, IsSpace space ∧ s = space ++ t := by
  unfold dropBlanks? at h
  split at h
  · next hblank =>
    obtain rfl := Option.some.inj h
    obtain ⟨gap, hgap, hs⟩ := eq_gap_append_trimStart s
    refine ⟨gap, ⟨hgap, ?_⟩, hs⟩
    rintro rfl
    obtain ⟨c, hc, hb⟩ := (Option.any_eq_true _ _).1 hblank
    rw [hs, List.nil_append] at hc
    rw [head?_trimStart hc] at hb
    cases hb
  · cases h

theorem dropMark?_gap {gap : List Char} (h : IsGap gap) {c : Char} (hc : isBlank c = false)
    (s : List Char) : dropMark? c (gap ++ c :: s) = some s := by
  rw [dropMark?, trimStart_of_isGap h, trimStart_of_head hc]
  exact if_pos rfl

/-- What is dropped is a gap and the mark. -/
theorem eq_of_dropMark? {c : Char} {s t : List Char} (h : dropMark? c s = some t) :
    ∃ gap, IsGap gap ∧ s = gap ++ c :: t := by
  refine ⟨s.takeWhile isBlank, List.all_eq_true.1 List.all_takeWhile, ?_⟩
  have hs : s.takeWhile isBlank ++ trimStart s = s := List.takeWhile_append_dropWhile
  unfold dropMark? at h
  split at h
  · next d u hu =>
    split at h
    · next hd =>
      obtain rfl : u = t := Option.some.inj h
      rw [hu, hd] at hs
      exact hs.symm
    · cases h
  · cases h

theorem dropMark?_eq_none {gap : List Char} (h : IsGap gap) {c d : Char} (hd : isBlank d = false)
    (hcd : d ≠ c) (s : List Char) : dropMark? c (gap ++ d :: s) = none := by
  rw [dropMark?, trimStart_of_isGap h, trimStart_of_head hd]
  exact if_neg hcd

/-! ## Redirections -/

/-- Empty brackets are dropped if they are there. -/
theorem dropEmptyBrackets_written {brackets back : List Char}
    (hb : Optionally EmptyBrackets brackets) (hg : IsGap back) :
    ∃ gap, IsGap gap ∧ dropEmptyBrackets (brackets ++ (back ++ [';'])) = gap ++ [';'] := by
  refine ⟨back, hg, ?_⟩
  unfold dropEmptyBrackets
  cases hb with
  | absent =>
    rw [List.nil_append, dropMark?_eq_none hg rfl (by decide)]
    rfl
  | present h =>
    obtain ⟨hf, hi⟩ := h
    rw [List.append_assoc, List.cons_append, dropMark?_gap hf rfl, Option.bind_some,
      List.append_assoc, List.cons_append, dropMark?_gap hi rfl]
    rfl

/-- What is dropped are empty brackets or nothing. -/
theorem eq_of_dropEmptyBrackets (s : List Char) :
    ∃ brackets, Optionally EmptyBrackets brackets ∧ s = brackets ++ dropEmptyBrackets s := by
  unfold dropEmptyBrackets
  cases h : (dropMark? '(' s).bind (dropMark? ')') with
  | none => exact ⟨[], .absent, rfl⟩
  | some t =>
    obtain ⟨u, hu, ht⟩ := Option.bind_eq_some_iff.1 h
    obtain ⟨front, hf, rfl⟩ := eq_of_dropMark? hu
    obtain ⟨inside, hi, rfl⟩ := eq_of_dropMark? ht
    refine ⟨front ++ '(' :: (inside ++ [')']), .present (.mk hf hi), ?_⟩
    simp only [Option.getD_some, List.append_assoc, List.cons_append, List.nil_append]

/-- What stands behind a case does not go on with its name. -/
theorem next_behind_case {brackets back : List Char} (hb : Optionally EmptyBrackets brackets)
    (hg : IsGap back) {c : Char} (hc : (brackets ++ (back ++ [';'])).head? = some c) :
    identifier.next c = false := by
  cases hb with
  | absent => exact next_of_gap hg rfl hc
  | present h =>
    obtain ⟨hf, hi⟩ := h
    rw [List.append_assoc] at hc
    exact next_of_gap hf rfl hc

theorem next_of_caseName {c : Char} (h : identifier.next c = false) : caseName.next c = false := by
  simp only [identifier, caseName, Bool.or_eq_false_iff] at h ⊢
  exact h.1

/-- A written redirection names its case. -/
theorem caseBehind?_written {typeName : String} (ht : caseName.accepts typeName.toList = true)
    {r : List Char} (h : RedirectionWritten typeName r) :
    caseBehind? (r ++ [';']) = some typeName.toList := by
  obtain @⟨arrow, gap, brackets, back, ha, hg, hb, hk⟩ := h
  obtain ⟨gap', hg', hd⟩ := dropEmptyBrackets_written hb hk
  have hname := isBlank_of_accepts (identifier_of_caseName ht)
  have hscan : caseName.scan? (typeName.toList ++ (brackets ++ (back ++ [';']))) =
      some (typeName.toList, brackets ++ (back ++ [';'])) :=
    scan?_name ht fun c hc => next_of_caseName (next_behind_case hb hk hc)
  have htrim : trimStart (gap ++ (typeName.toList ++ (brackets ++ (back ++ [';'])))) =
      typeName.toList ++ (brackets ++ (back ++ [';'])) := by
    rw [trimStart_of_isGap hg]
    exact trimStart_of_isTrimmed (isTrimmed_of_forall hname) _ (ne_nil_of_accepts ht)
  have hbehind : (if (arrow ++ (gap ++ (typeName.toList ++ (brackets ++ (back ++ [';']))))).head? =
        some '>' then (arrow ++ (gap ++ (typeName.toList ++ (brackets ++ (back ++ [';']))))).tail
      else arrow ++ (gap ++ (typeName.toList ++ (brackets ++ (back ++ [';']))))) =
      gap ++ (typeName.toList ++ (brackets ++ (back ++ [';']))) := by
    cases ha with
    | absent =>
      rw [List.nil_append, if_neg]
      intro hc
      cases gap with
      | nil =>
        obtain ⟨c, t, hct⟩ := List.exists_cons_of_ne_nil (ne_nil_of_accepts ht)
        have hnext := next_of_accepts (identifier_of_caseName ht) (c := c) (by simp [hct])
        rw [hct] at hc
        exact ne_of_next hnext rfl (Option.some.inj hc)
      | cons d gap => exact ne_of_isBlank (hg d List.mem_cons_self) rfl (Option.some.inj hc)
    | present ha =>
      rw [ha]
      rfl
  simp only [List.append_assoc]
  unfold caseBehind?
  rw [hbehind]
  simp only [htrim, hscan, hd, dropMark?_gap hg' (c := ';') rfl, Option.bind_eq_bind,
    Option.bind_some]
  rfl

/-- **A case is read from a written redirection only.** -/
theorem eq_of_caseBehind? {s name : List Char} (h : caseBehind? s = some name) :
    caseName.accepts name = true ∧
      ∃ r, RedirectionWritten (String.ofList name) r ∧ s = r ++ [';'] := by
  have harrow : ∃ arrow, Optionally (· = ['>']) arrow ∧
      s = arrow ++ if s.head? = some '>' then s.tail else s := by
    split
    · next hs =>
      obtain ⟨t, rfl⟩ := List.head?_eq_some_iff.1 hs
      exact ⟨['>'], .present rfl, rfl⟩
    · exact ⟨[], .absent, rfl⟩
  obtain ⟨arrow, ha, hs⟩ := harrow
  unfold caseBehind? at h
  simp only [Option.bind_eq_bind, Option.bind_eq_some_iff, Prod.exists] at h
  generalize (if s.head? = some '>' then s.tail else s) = behind at h hs
  obtain ⟨scanned, t, hscan, rest, hrest, h⟩ := h
  split at h
  · next hempty =>
    obtain rfl : scanned = name := Option.some.inj h
    obtain ⟨haccepts, ht⟩ := NameClass.scan?_eq_some hscan
    obtain ⟨gap, hg, hgap⟩ := eq_gap_append_trimStart behind
    obtain ⟨brackets, hb, hbrackets⟩ := eq_of_dropEmptyBrackets t
    obtain ⟨back, hk, hback⟩ := eq_of_dropMark? hrest
    rw [List.isEmpty_iff.1 hempty] at hback
    have hwritten : RedirectionWritten (String.ofList scanned)
        (arrow ++ (gap ++ ((String.ofList scanned).toList ++ (brackets ++ back)))) :=
      .mk ha hg hb hk
    rw [String.toList_ofList] at hwritten
    refine ⟨haccepts, _, hwritten, ?_⟩
    rw [hs, hgap, ← ht, hbrackets, hback]
    simp only [List.append_assoc]
  · cases h

/-! ## The last redirection -/

/-- The characters that a redirection may hold. -/
theorem mem_redirectionWritten {typeName : String}
    (ht : identifier.accepts typeName.toList = true) {r : List Char}
    (h : RedirectionWritten typeName r) {c : Char} (hc : c ∈ r) :
    c = '>' ∨ c = '(' ∨ c = ')' ∨ isBlank c = true ∨ identifier.next c = true := by
  obtain ⟨ha, hg, hb, hk⟩ := h
  rw [List.mem_append, List.mem_append, List.mem_append, List.mem_append] at hc
  rcases hc with hc | hc | hc | hc | hc
  · cases ha with
    | absent => cases hc
    | present ha =>
      rw [ha] at hc
      exact .inl (List.mem_singleton.1 hc)
  · exact .inr (.inr (.inr (.inl (hg c hc))))
  · exact .inr (.inr (.inr (.inr (next_of_accepts ht hc))))
  · cases hb with
    | absent => cases hc
    | present hb =>
      obtain ⟨hf, hi⟩ := hb
      rw [List.mem_append, List.mem_cons, List.mem_append, List.mem_singleton] at hc
      rcases hc with hc | hc | hc | hc
      · exact .inr (.inr (.inr (.inl (hf c hc))))
      · exact .inr (.inl hc)
      · exact .inr (.inr (.inr (.inl (hi c hc))))
      · exact .inr (.inr (.inl hc))
  · exact .inr (.inr (.inr (.inl (hk c hc))))

/-- No further `=` stands where a case is read. -/
theorem not_mem_of_caseBehind? {s name : List Char} (h : caseBehind? s = some name) : '=' ∉ s := by
  obtain ⟨hn, r, hr, rfl⟩ := eq_of_caseBehind? h
  have hname : identifier.accepts (String.ofList name).toList = true := by
    rw [String.toList_ofList]
    exact identifier_of_caseName hn
  intro hm
  rcases List.mem_append.1 hm with hm | hm
  · rcases mem_redirectionWritten hname hr hm with h | h | h | h | h
    · exact absurd h (by decide)
    · exact absurd h (by decide)
    · exact absurd h (by decide)
    · exact absurd h (by decide)
    · exact absurd h (by decide)
  · exact absurd (List.mem_singleton.1 hm) (by decide)

/-- **The last redirection counts**, whatever stands in front of it. -/
theorem redirectedCase?_append {s name : List Char} (h : caseBehind? s = some name)
    (a : List Char) : redirectedCase? (a ++ '=' :: s) = some name := by
  induction a with
  | nil =>
    rw [List.nil_append, redirectedCase?, if_pos rfl, h]
  | cons c a ih =>
    have hnone : (if c = '=' then caseBehind? (a ++ '=' :: s) else none) = none := by
      split
      · cases hc : caseBehind? (a ++ '=' :: s) with
        | none => rfl
        | some other =>
          refine absurd ?_ (not_mem_of_caseBehind? hc)
          exact List.mem_append_right a List.mem_cons_self
      · rfl
    rw [List.cons_append, redirectedCase?, hnone]
    exact ih

/-- A redirection is found behind some `=`. -/
theorem eq_of_redirectedCase? {s name : List Char} (h : redirectedCase? s = some name) :
    ∃ a b, s = a ++ '=' :: b ∧ caseBehind? b = some name := by
  induction s with
  | nil => cases h
  | cons c s ih =>
    rw [redirectedCase?] at h
    split at h
    · next hc =>
      obtain rfl := Option.some.inj h
      split at hc
      · next he =>
        rw [he]
        exact ⟨[], s, rfl, hc⟩
      · cases hc
    · obtain ⟨a, b, rfl, hb⟩ := ih h
      exact ⟨c :: a, b, rfl, hb⟩

/-! ## Heads -/

/-- A name in front of a gap and a mark is scanned whole. -/
theorem scan?_gap {name gap : List Char} (hn : identifier.accepts name = true) (hg : IsGap gap)
    {c : Char} (hc : identifier.next c = false) (s : List Char) :
    identifier.scan? (name ++ (gap ++ c :: s)) = some (name, gap ++ c :: s) :=
  scan?_name hn fun _ hd => next_of_gap hg hc hd

theorem trimStart_name {name : List Char} (hn : identifier.accepts name = true) (s : List Char) :
    trimStart (name ++ s) = name ++ s :=
  trimStart_of_isTrimmed (isTrimmed_of_forall (isBlank_of_accepts hn)) s (ne_nil_of_accepts hn)

/-- The label of a written head, and what stands behind the opening bracket. -/
theorem head?_headWritten {union label : String} (hu : identifier.accepts union.toList = true)
    (hl : identifier.accepts label.toList = true) {s : List Char} (h : HeadWritten union label s)
    (t : List Char) : head? (s ++ '(' :: t) = some (label.toList, t) := by
  obtain @⟨space, gap₁, gap₂, gap₃, hs, h₁, h₂, h₃⟩ := h
  have hblanks : ∀ c, (union.toList ++ (gap₁ ++ '.' :: (gap₂ ++ (label.toList ++ (gap₃ ++
      '(' :: t))))).head? = some c → isBlank c = false := by
    intro c hc
    rw [← trimStart_name hu] at hc
    exact head?_trimStart hc
  have hfactory : ("factory".toList ++ (space ++ (union.toList ++ (gap₁ ++ '.' :: (gap₂ ++
      (label.toList ++ gap₃)))))) ++ '(' :: t = "factory".toList ++ (space ++ (union.toList ++
        (gap₁ ++ '.' :: (gap₂ ++ (label.toList ++ (gap₃ ++ '(' :: t)))))) := by
    simp only [List.append_assoc, List.cons_append]
  rw [hfactory]
  unfold head?
  rw [dropWord?_append]
  simp only [Option.bind_eq_bind, Option.bind_some, dropBlanks?_of_isSpace hs hblanks,
    scan?_gap hu h₁ (c := '.') rfl, dropMark?_gap h₁ (c := '.') rfl, trimStart_of_isGap h₂,
    trimStart_name hl, scan?_gap hl h₃ (c := '(') rfl, dropMark?_gap h₃ (c := '(') rfl]
  rfl

/-- **A label is read from a written head only.** -/
theorem eq_of_head? {s label behind : List Char} (h : head? s = some (label, behind)) :
    identifier.accepts label = true ∧ ∃ union head, identifier.accepts union = true ∧
      HeadWritten (String.ofList union) (String.ofList label) head ∧ s = head ++ '(' :: behind := by
  unfold head? at h
  simp only [Option.bind_eq_bind, Option.bind_eq_some_iff, Prod.exists] at h
  obtain ⟨s₁, h₁, s₂, h₂, union, s₃, h₃, s₄, h₄, label', s₅, h₅, s₆, h₆, h⟩ := h
  obtain ⟨rfl, rfl⟩ := Prod.mk.inj (Option.some.inj h)
  obtain ⟨space, hs, rfl⟩ := eq_of_dropBlanks? h₂
  obtain ⟨hunion, rfl⟩ := NameClass.scan?_eq_some h₃
  obtain ⟨gap₁, hg₁, rfl⟩ := eq_of_dropMark? h₄
  obtain ⟨gap₂, hg₂, hs₄⟩ := eq_gap_append_trimStart s₄
  obtain ⟨hlabel, hs₅⟩ := NameClass.scan?_eq_some h₅
  obtain ⟨gap₃, hg₃, rfl⟩ := eq_of_dropMark? h₆
  have hwritten : HeadWritten (String.ofList union) (String.ofList label') _ :=
    .mk hs hg₁ hg₂ hg₃
  simp only [String.toList_ofList] at hwritten
  refine ⟨hlabel, union, _, hunion, hwritten, ?_⟩
  rw [eq_append_of_dropWord? h₁, hs₄, ← hs₅]
  simp only [List.append_assoc, List.cons_append]

/-! ## Factories -/

/-- A written head starts with the word `factory`. -/
theorem isTrimmed_headWritten {union label : String} {head : List Char}
    (h : HeadWritten union label head) (s : List Char) : IsTrimmed (head ++ s ++ [';']) := by
  refine ⟨fun c hc => ?_, fun c hc => ?_⟩
  · obtain ⟨-, -, -, -⟩ := h
    obtain rfl : 'f' = c := Option.some.inj hc
    rfl
  · rw [getLast?_append_of_ne_nil _ (List.cons_ne_nil ';' [])] at hc
    obtain rfl : ';' = c := Option.some.inj hc
    rfl

/-- A factory is read from both ends; between them there may be anything. -/
theorem variant?_ends {union label typeName : String}
    (hu : identifier.accepts union.toList = true) (hl : identifier.accepts label.toList = true)
    (ht : caseName.accepts typeName.toList = true) {head redirection : List Char}
    (hh : HeadWritten union label head) (hr : RedirectionWritten typeName redirection)
    (s : List Char) :
    variant? (head ++ '(' :: (s ++ '=' :: redirection) ++ [';']) = some ⟨typeName, label,
      ((beforeClosing? 0 (s ++ '=' :: (redirection ++ [';']))).map parameters).getD []⟩ := by
  have hhead := head?_headWritten hu hl hh (s ++ '=' :: (redirection ++ [';']))
  have htrim := trim_of_isTrimmed (isTrimmed_headWritten hh ('(' :: (s ++ '=' :: redirection)))
  have hcase := redirectedCase?_append (caseBehind?_written ht hr) (head ++ '(' :: s)
  simp only [List.append_assoc, List.cons_append] at htrim hcase ⊢
  unfold variant?
  simp only [htrim, hcase, hhead, Option.bind_eq_bind, Option.bind_some, String.ofList_toList]
  rfl

/-- **A written factory is read as itself**, from the word `factory` to its semicolon. -/
theorem variant?_written {union : String} (hu : identifier.accepts union.toList = true)
    {v : Variant} (hv : v.WellFormed IsDefaultText) {head params gap redirection : List Char}
    (hh : HeadWritten union v.label head) (hl : ListWritten v.parameters params)
    (hr : RedirectionWritten v.typeName redirection) :
    variant? (head ++ '(' :: (params ++ ')' :: (gap ++ '=' :: redirection)) ++ [';']) = some v := by
  have hclosing := beforeClosing?_of_nested (hl.nested hv.parameters).round
    (gap ++ '=' :: (redirection ++ [';']))
  have hends := variant?_ends hu hv.label hv.typeName hh hr (params ++ ')' :: gap)
  simp only [List.append_assoc, List.cons_append] at hends ⊢
  rw [hends, hclosing, Option.map_some, Option.getD_some, parameters_listWritten hl hv.parameters]

end DartUnion.Source
