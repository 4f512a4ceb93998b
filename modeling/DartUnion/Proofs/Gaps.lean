import DartUnion.Dart.Name
import DartUnion.Proofs.Brackets
import DartUnion.Source.Parameter
import DartUnion.Source.Union

/-!
# Gaps and names

Between two tokens of a source text there is a gap: blanks, perhaps none (`IsGap`), and between two
words a space: at least one blank (`IsSpace`). The scans trim gaps away and cross spaces, whatever
blanks they are made of, line ends among them.

Names are made of few characters (`identifier.next`), none of which is blank, a bracket or a mark,
so a scan for one of those never stops inside a name.

Results:
* `trim_gaps`: trimming takes the gaps around a trimmed text and nothing else.
* `isBlank_of_next`, `neutral_of_next`: the characters of names are neither blank nor brackets.
* `isWordChar_of_isBlank`: no blank belongs to a word.
* `scan?_name`: a name is scanned whole in front of anything that no name goes on with.
-/

namespace DartUnion.Source

open DartUnion.Text DartUnion.Dart

/-- What is said of each character of a text is decided by going through the text. -/
instance decidableForallMem {p : Char → Prop} [DecidablePred p] (s : List Char) :
    Decidable (∀ c ∈ s, p c) :=
  List.decidableBAll p s

/-- Blanks, perhaps none. -/
def IsGap (s : List Char) : Prop := ∀ c ∈ s, isBlank c = true

/-- At least one blank. -/
def IsSpace (s : List Char) : Prop := IsGap s ∧ s ≠ []

instance (s : List Char) : Decidable (IsGap s) := inferInstanceAs (Decidable (∀ c ∈ s, _))

instance (s : List Char) : Decidable (IsSpace s) := inferInstanceAs (Decidable (_ ∧ _))

/-! ## Gaps -/

theorem isGap_nil : IsGap [] := fun _ h => absurd h List.not_mem_nil

theorem isGap_append {s t : List Char} (hs : IsGap s) (ht : IsGap t) : IsGap (s ++ t) := by
  intro c hc
  rcases List.mem_append.1 hc with hc | hc
  · exact hs c hc
  · exact ht c hc

/-- A blank is none of the characters that are not blank. -/
theorem ne_of_isBlank {c d : Char} (hc : isBlank c = true) (hd : isBlank d = false) : c ≠ d := by
  rintro rfl
  rw [hc] at hd
  cases hd

theorem IsGap.not_mem {s : List Char} (h : IsGap s) {d : Char} (hd : isBlank d = false) : d ∉ s :=
  fun hm => ne_of_isBlank (h d hm) hd rfl

theorem trimStart_of_isGap {s : List Char} (h : IsGap s) (t : List Char) :
    trimStart (s ++ t) = trimStart t :=
  List.dropWhile_append_of_pos h

theorem trimEnd_of_isGap {t : List Char} (h : IsGap t) (s : List Char) :
    trimEnd (s ++ t) = trimEnd s := by
  rw [trimEnd, List.reverse_append, List.dropWhile_append_of_pos]
  · rfl
  · exact fun c hc => h c (List.mem_reverse.1 hc)

theorem trim_of_isGap {s : List Char} (h : IsGap s) : trim s = [] := by
  rw [trim, trimEnd_eq_nil_iff, allBlank, List.all_eq_true]
  exact fun c hc => h c ((List.dropWhile_suffix _).subset hc)

/-- A text that neither starts nor ends with a blank. -/
def IsTrimmed (s : List Char) : Prop :=
  (∀ c, s.head? = some c → isBlank c = false) ∧ ∀ c, s.getLast? = some c → isBlank c = false

theorem trimStart_of_isTrimmed {s : List Char} (h : IsTrimmed s) (t : List Char) (hs : s ≠ []) :
    trimStart (s ++ t) = s ++ t := by
  cases s with
  | nil => exact absurd rfl hs
  | cons c s => exact trimStart_of_head (h.1 c rfl)

theorem trimEnd_of_isTrimmed {s : List Char} (h : IsTrimmed s) : trimEnd s = s := by
  rw [trimEnd]
  cases hs : s.reverse with
  | nil =>
    rw [List.reverse_eq_nil_iff] at hs
    rw [hs]
    rfl
  | cons c t =>
    have hc : isBlank c = false := h.2 c (by rw [← List.head?_reverse, hs]; rfl)
    rw [List.dropWhile_cons_of_neg (by rw [hc]; exact Bool.false_ne_true), ← hs,
      List.reverse_reverse]

theorem isTrimmed_trim (s : List Char) : IsTrimmed (trim s) := by
  refine ⟨fun c hc => ?_, fun c hc => getLast?_trimEnd hc⟩
  have hp : trim s <+: trimStart s := by
    rw [trim, trimEnd, ← List.reverse_suffix, List.reverse_reverse]
    exact List.dropWhile_suffix _
  obtain ⟨t, ht⟩ := hp
  refine head?_trimStart (s := s) ?_
  rw [← ht, List.head?_append, hc]
  rfl

theorem isTrimmed_of_trim_eq {s : List Char} (h : trim s = s) : IsTrimmed s :=
  h ▸ isTrimmed_trim s

/-- **Trimming takes the gaps** around a trimmed text and nothing else. -/
theorem trim_gaps {front s back : List Char} (hf : IsGap front) (hs : IsTrimmed s)
    (hb : IsGap back) : trim (front ++ s ++ back) = s := by
  rw [List.append_assoc, trim, trimStart_of_isGap hf]
  cases s with
  | nil =>
    rw [List.nil_append, ← trim]
    exact trim_of_isGap hb
  | cons c s =>
    rw [trimStart_of_isTrimmed hs _ (List.cons_ne_nil c s), trimEnd_of_isGap hb,
      trimEnd_of_isTrimmed hs]

theorem trim_of_isTrimmed {s : List Char} (h : IsTrimmed s) : trim s = s := by
  have := trim_gaps isGap_nil h isGap_nil
  rwa [List.nil_append, List.append_nil] at this

theorem isTrimmed_append {s t : List Char} (hs : IsTrimmed s) (ht : IsTrimmed t) (hs' : s ≠ [])
    (ht' : t ≠ []) (middle : List Char) : IsTrimmed (s ++ middle ++ t) := by
  refine ⟨fun c hc => hs.1 c ?_, fun c hc => ht.2 c ?_⟩
  · rw [List.append_assoc, List.head?_append] at hc
    cases s with
    | nil => exact absurd rfl hs'
    | cons d s => exact hc
  · rw [List.getLast?_append] at hc
    cases h : t.getLast? with
    | none => exact absurd (List.getLast?_eq_none_iff.1 h) ht'
    | some d =>
      rw [h] at hc
      exact hc

theorem trimStart_of_head?_ne {s : List Char} (h : ∀ c, s.head? = some c → isBlank c = false) :
    trimStart s = s := by
  cases s with
  | nil => rfl
  | cons c s => exact trimStart_of_head (h c rfl)

/-- A space is crossed as a whole. -/
theorem dropBlanks?_of_isSpace {s t : List Char} (hs : IsSpace s)
    (ht : ∀ c, t.head? = some c → isBlank c = false) : dropBlanks? (s ++ t) = some t := by
  rw [dropBlanks?, if_pos, trimStart_of_isGap hs.1, trimStart_of_head?_ne ht]
  obtain ⟨h, hne⟩ := hs
  cases s with
  | nil => exact absurd rfl hne
  | cons c s => exact h c List.mem_cons_self

/-! ## Lines made one -/

theorem oneLine_append (s t : List Char) : oneLine (s ++ t) = oneLine s ++ oneLine t :=
  List.map_append

/-- A text without line ends is one line. -/
theorem oneLine_eq_self {s : List Char} (h : ∀ c ∈ s, c ≠ '\n' ∧ c ≠ '\r') : oneLine s = s := by
  have hid : oneLine s = s.map id := List.map_congr_left fun c hc => by
    rw [if_neg (by simp [h c hc])]
    rfl
  rw [hid, List.map_id]

theorem isGap_oneLine {s : List Char} (h : IsGap s) : IsGap (oneLine s) := by
  intro c hc
  obtain ⟨d, hd, rfl⟩ := List.mem_map.1 hc
  split
  · rfl
  · exact h d hd

theorem isSpace_oneLine {s : List Char} (h : IsSpace s) : IsSpace (oneLine s) :=
  ⟨isGap_oneLine h.1, fun hn => h.2 (List.map_eq_nil_iff.1 hn)⟩

/-! ## The characters of names -/

theorem toNat_of_isAlphanum {c : Char} (h : c.isAlphanum = true) :
    (0x30 ≤ c.toNat ∧ c.toNat ≤ 0x39) ∨ (0x41 ≤ c.toNat ∧ c.toNat ≤ 0x5A) ∨
      (0x61 ≤ c.toNat ∧ c.toNat ≤ 0x7A) := by
  have hparts : ((decide ('A'.val ≤ c.val ∧ c.val ≤ 'Z'.val) ||
      decide ('a'.val ≤ c.val) && decide (c.val ≤ 'z'.val)) ||
      decide ('0'.val ≤ c.val) && decide (c.val ≤ '9'.val)) = true := h
  simp only [Bool.or_eq_true, Bool.and_eq_true, decide_eq_true_eq, UInt32.le_iff_toNat_le] at hparts
  rcases hparts with (h | h) | h
  · exact .inr (.inl h)
  · exact .inr (.inr h)
  · exact .inl h

theorem isAlpha_of_isUpper {c : Char} (h : c.isUpper = true) : c.isAlpha = true :=
  Bool.or_eq_true_iff.2 (.inl h)

/-- The characters of names are not blank. -/
theorem isBlank_of_next {c : Char} (h : identifier.next c = true) : isBlank c = false := by
  simp only [identifier, Bool.or_eq_true, beq_iff_eq] at h
  rcases h with (h | rfl) | rfl
  · have := toNat_of_isAlphanum h
    simp only [isBlank, Bool.or_eq_false_iff, Bool.and_eq_false_iff, decide_eq_false_iff_not,
      beq_eq_false_iff_ne]
    omega
  · rfl
  · rfl

/-- A gap does not go on with a name. -/
theorem next_of_gap {gap : List Char} (hg : IsGap gap) {c d : Char} (hc : identifier.next c = false)
    {s : List Char} (hd : (gap ++ c :: s).head? = some d) : identifier.next d = false := by
  cases gap with
  | nil =>
    obtain rfl : c = d := Option.some.inj hd
    exact hc
  | cons e gap =>
    obtain rfl : e = d := Option.some.inj hd
    rw [Bool.eq_false_iff]
    intro hn
    exact ne_of_isBlank (hg e List.mem_cons_self) (isBlank_of_next hn) rfl

theorem ne_of_next {c d : Char} (hc : identifier.next c = true) (hd : identifier.next d = false) :
    c ≠ d := by
  rintro rfl
  rw [hc] at hd
  cases hd

/-- The characters of names are no brackets. -/
theorem neutral_of_next {c : Char} (h : identifier.next c = true) : Neutral c := by
  simp only [Neutral, isOpening, isClosing, Bool.or_eq_false_iff, beq_eq_false_iff_ne]
  exact ⟨⟨⟨⟨ne_of_next h rfl, ne_of_next h rfl⟩, ne_of_next h rfl⟩, ne_of_next h rfl⟩,
    ⟨⟨ne_of_next h rfl, ne_of_next h rfl⟩, ne_of_next h rfl⟩, ne_of_next h rfl⟩

/-- No bracket goes on with a name, so no character of a name is one. -/
theorem ne_bracket_of_next {kinds : List Bracket}
    (hk : ∀ b ∈ kinds, identifier.next b.opening = false ∧ identifier.next b.closing = false)
    {c : Char} (h : identifier.next c = true) : ∀ b ∈ kinds, c ≠ b.opening ∧ c ≠ b.closing :=
  fun b hb => ⟨ne_of_next h (hk b hb).1, ne_of_next h (hk b hb).2⟩

/-- Blanks are no brackets. -/
theorem neutral_of_isBlank {c : Char} (h : isBlank c = true) : Neutral c := by
  simp only [Neutral, isOpening, isClosing, Bool.or_eq_false_iff, beq_eq_false_iff_ne]
  exact ⟨⟨⟨⟨ne_of_isBlank h rfl, ne_of_isBlank h rfl⟩, ne_of_isBlank h rfl⟩, ne_of_isBlank h rfl⟩,
    ⟨⟨ne_of_isBlank h rfl, ne_of_isBlank h rfl⟩, ne_of_isBlank h rfl⟩, ne_of_isBlank h rfl⟩

theorem identifier_start_next {c : Char} (h : identifier.start c = true) :
    identifier.next c = true := by
  simp only [identifier, Char.isAlphanum, Bool.or_eq_true] at h ⊢
  rcases h with (h | h) | h
  · exact .inl (.inl (.inl h))
  · exact .inl (.inr h)
  · exact .inr h

/-- A name consists of characters of names. -/
theorem next_of_accepts {s : List Char} (h : identifier.accepts s = true) {c : Char}
    (hc : c ∈ s) : identifier.next c = true := by
  cases s with
  | nil => cases h
  | cons d s =>
    simp only [NameClass.accepts, Bool.and_eq_true, List.all_eq_true] at h
    rcases List.mem_cons.1 hc with rfl | hc
    · exact identifier_start_next h.1
    · exact h.2 c hc

theorem ne_nil_of_accepts {k : NameClass} {s : List Char} (h : k.accepts s = true) : s ≠ [] := by
  rintro rfl
  cases h

/-- Names of cases and of unions are identifiers. -/
theorem accepts_mono {k k' : NameClass} (hs : ∀ c, k.start c = true → k'.start c = true)
    (hn : ∀ c, k.next c = true → k'.next c = true) {s : List Char} (h : k.accepts s = true) :
    k'.accepts s = true := by
  cases s with
  | nil => cases h
  | cons c s =>
    simp only [NameClass.accepts, Bool.and_eq_true, List.all_eq_true] at h ⊢
    exact ⟨hs c h.1, fun d hd => hn d (h.2 d hd)⟩

theorem identifier_of_caseName {s : List Char} (h : caseName.accepts s = true) :
    identifier.accepts s = true := by
  refine accepts_mono (fun c hc => ?_) (fun c hc => ?_) h
  · simp only [caseName, identifier, Bool.or_eq_true] at hc ⊢
    rcases hc with hc | hc
    · exact .inl (.inl (isAlpha_of_isUpper hc))
    · exact .inl (.inr hc)
  · simp only [caseName, identifier, Bool.or_eq_true] at hc ⊢
    exact .inl hc

theorem identifier_of_unionName {s : List Char} (h : unionName.accepts s = true) :
    identifier.accepts s = true := by
  refine accepts_mono (fun c hc => ?_) (fun c hc => ?_) h
  · simp only [unionName, identifier, Bool.or_eq_true] at hc ⊢
    exact .inl (.inl (isAlpha_of_isUpper hc))
  · simp only [unionName, identifier, Bool.or_eq_true] at hc ⊢
    exact .inl (.inl hc)

theorem guarded_of_isGap {s : List Char} (h : IsGap s) : Guarded s :=
  guarded_of_neutral fun c hc => ⟨neutral_of_isBlank (h c hc), ne_of_isBlank (h c hc) rfl⟩

theorem guarded_of_accepts {s : List Char} (h : identifier.accepts s = true) : Guarded s :=
  guarded_of_neutral fun _ hc =>
    ⟨neutral_of_next (next_of_accepts h hc), ne_of_next (next_of_accepts h hc) rfl⟩

/-- **A name is scanned whole** in front of anything that it does not go on with. -/
theorem scan?_name {k : NameClass} {name rest : List Char} (hn : k.accepts name = true)
    (hr : ∀ c, rest.head? = some c → k.next c = false) :
    k.scan? (name ++ rest) = some (name, rest) := by
  refine NameClass.scan?_append hn ?_
  cases rest with
  | nil => rfl
  | cons c rest =>
    rw [List.head?_cons, Option.all_some, hr c rfl]
    rfl

/-! ## Words -/

/-- The code points of blanks, as closed ranges. -/
def blankRanges : Ranges :=
  [(0x09, 0x0D), (0x20, 0x20), (0x85, 0x85), (0xA0, 0xA0), (0x1680, 0x1680), (0x2000, 0x200A),
    (0x2028, 0x2029), (0x202F, 0x202F), (0x205F, 0x205F), (0x3000, 0x3000)]

theorem wordRanges_disjoint_blankRanges :
    ∀ r ∈ wordRanges, ∀ b ∈ blankRanges, r.2 < b.1 ∨ b.2 < r.1 := by
  decide +kernel

theorem blankRanges_contains {c : Char} (h : isBlank c = true) : blankRanges.contains c = true := by
  simp only [isBlank, Bool.or_eq_true, Bool.and_eq_true, decide_eq_true_eq, beq_iff_eq] at h
  simp only [Ranges.contains, blankRanges, List.any_cons, List.any_nil, Bool.or_false,
    Bool.or_eq_true, Bool.and_eq_true, decide_eq_true_eq]
  omega

/-- No blank belongs to a word. -/
theorem isWordChar_of_isBlank {c : Char} (h : isBlank c = true) : isWordChar c = false := by
  rw [Bool.eq_false_iff]
  intro hw
  obtain ⟨r, hr, h₁, h₂⟩ := Ranges.contains_iff.1 hw
  obtain ⟨b, hb, h₃, h₄⟩ := Ranges.contains_iff.1 (blankRanges_contains h)
  have := wordRanges_disjoint_blankRanges r hr b hb
  omega

/-- Letters and digits belong to words. -/
theorem isWordChar_of_isAlphanum {c : Char} (h : c.isAlphanum = true) : isWordChar c = true := by
  refine Ranges.contains_iff.2 ?_
  rcases toNat_of_isAlphanum h with h | h | h
  · exact ⟨_, .head _, h⟩
  · exact ⟨_, .tail _ (.head _), h⟩
  · exact ⟨_, .tail _ (.tail _ (.tail _ (.head _))), h⟩

end DartUnion.Source
