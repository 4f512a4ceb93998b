import DartUnion.Proofs.Grammar
import DartUnion.Proofs.Pieces

/-!
# Reading a written parameter list

Reading undoes writing. A piece that writes a parameter is read as that parameter: the modifiers in
front are dropped one by one, the default is split off at its `=`, and what is left is a type and a
name. A parameter list is read part by part, since behind a comma outside of a group the scan starts
afresh.

Results:
* `dropModifier?_keyword`, `dropModifier?_eq_none`: a modifier is dropped exactly when it is the
  first word.
* `splitDefault?_append`: a text without `=` is passed over, at the depth that it leaves.
* `parameter?_of_bare`: **a written parameter is read as itself**.
* `parameters_listWritten`: **a written parameter list is read as itself**.
-/

namespace DartUnion.Source

open DartUnion.Text DartUnion.Dart

/-! ## Words -/

/-- A word in front of a blank is taken whole. -/
theorem takeWhile_word {w s : List Char} (hw : ∀ c ∈ w, isBlank c = false)
    (hs : ∀ c, s.head? = some c → isBlank c = true) :
    (w ++ s).takeWhile (!isBlank ·) = w ∧ (w ++ s).dropWhile (!isBlank ·) = s := by
  have hw' : ∀ c ∈ w, (!isBlank c) = true := fun c hc => by rw [hw c hc]; rfl
  rw [List.takeWhile_append_of_pos hw', List.dropWhile_append_of_pos hw']
  cases s with
  | nil => exact ⟨List.append_nil w, rfl⟩
  | cons c s =>
    have hc : isBlank c = true := hs c rfl
    rw [List.takeWhile_cons, List.dropWhile_cons, hc]
    exact ⟨List.append_nil w, rfl⟩

/-- The first word of a text does not change when a space and more text follow. -/
theorem firstWord_append {space : List Char} (h : IsSpace space) (s t : List Char) :
    firstWord (s ++ space ++ t) = firstWord s := by
  unfold firstWord
  induction s with
  | nil =>
    obtain ⟨hs, hne⟩ := h
    cases space with
    | nil => exact absurd rfl hne
    | cons c space =>
      exact List.takeWhile_cons_of_neg (by rw [hs c List.mem_cons_self]; exact Bool.false_ne_true)
  | cons c s ih =>
    rw [List.cons_append, List.cons_append, List.takeWhile_cons, List.takeWhile_cons, ih]

theorem isBlank_of_accepts {s : List Char} (h : identifier.accepts s = true) :
    ∀ c ∈ s, isBlank c = false :=
  fun _ hc => isBlank_of_next (next_of_accepts h hc)

theorem isTrimmed_of_forall {s : List Char} (h : ∀ c ∈ s, isBlank c = false) : IsTrimmed s :=
  ⟨fun c hc => h c (List.mem_of_head? hc), fun c hc => h c (List.mem_of_getLast? hc)⟩

/-! ## Modifiers -/

theorem dropWord?_append (word s : List Char) : dropWord? word (word ++ s) = some s := by
  rw [dropWord?, if_pos (List.isPrefixOf_iff_prefix.2 (List.prefix_append word s)),
    List.drop_left]

theorem eq_append_of_dropWord? {word s t : List Char} (h : dropWord? word s = some t) :
    s = word ++ t := by
  unfold dropWord? at h
  split at h
  · next hp =>
    obtain ⟨u, rfl⟩ := List.isPrefixOf_iff_prefix.1 hp
    rw [List.drop_left] at h
    rw [Option.some.inj h]
  · cases h

theorem dropModifier?_keyword {word : String} {k s : List Char} (hk : Keyword word k)
    (hs : ∀ c, s.head? = some c → isBlank c = false) : dropModifier? word (k ++ s) = some s := by
  obtain ⟨hspace⟩ := hk
  rw [dropModifier?, List.append_assoc, dropWord?_append]
  exact dropBlanks?_of_isSpace hspace hs

theorem dropModifier?_eq_none {word : String} (hw : identifier.accepts word.toList = true)
    {s : List Char} (h : firstWord s ≠ word.toList) : dropModifier? word s = none := by
  cases hd : dropModifier? word s with
  | none => rfl
  | some t =>
    refine absurd ?_ h
    obtain ⟨u, hu, ht⟩ := Option.bind_eq_some_iff.1 hd
    rw [eq_append_of_dropWord? hu]
    refine (takeWhile_word (isBlank_of_accepts hw) fun c hc => ?_).1
    unfold dropBlanks? at ht
    split at ht
    · next hb =>
      rw [hc] at hb
      exact hb
    · cases ht

theorem dropModifier_of_ne {word : String} (hw : identifier.accepts word.toList = true)
    {s : List Char} (h : firstWord s ≠ word.toList) : dropModifier word s = s := by
  rw [dropModifier, dropModifier?_eq_none hw h]
  rfl

theorem dropModifier_keyword {word : String} {k s : List Char} (hk : Keyword word k)
    (hs : ∀ c, s.head? = some c → isBlank c = false) : dropModifier word (k ++ s) = s := by
  rw [dropModifier, dropModifier?_keyword hk hs]
  rfl

theorem firstWord_keyword {word : String} (hw : identifier.accepts word.toList = true)
    {k : List Char} (hk : Keyword word k) (s : List Char) : firstWord (k ++ s) = word.toList := by
  obtain ⟨hs⟩ := hk
  rw [firstWord_append hs]
  have := takeWhile_word (isBlank_of_accepts hw) (s := []) (by simp)
  rw [List.append_nil] at this
  exact this.1

/-- The modifiers in front of a type are dropped, and nothing else. -/
theorem dropModifiers {required final s : List Char} {isRequired : Prop} [Decidable isRequired]
    (hr : if isRequired then Keyword "required" required else required = [])
    (hf : Optionally (Keyword "final") final)
    (hs : ∀ c, s.head? = some c → isBlank c = false) (hw : firstWord s ∉ modifiers) :
    (dropModifier? "required" (required ++ (final ++ s))).isSome = decide isRequired ∧
      dropModifier "final" (dropModifier "covariant" (dropModifier "required"
        (required ++ (final ++ s)))) = s := by
  simp only [modifiers, List.mem_cons, List.not_mem_nil, or_false, not_or] at hw
  obtain ⟨hw₁, hw₂, hw₃⟩ := hw
  have hfinal : dropModifier "final" (dropModifier "covariant" (final ++ s)) = s ∧
      firstWord (final ++ s) ≠ "required".toList ∧
      ∀ c, (final ++ s).head? = some c → isBlank c = false := by
    cases hf with
    | absent =>
      rw [List.nil_append, dropModifier_of_ne (by decide) hw₂, dropModifier_of_ne (by decide) hw₃]
      exact ⟨rfl, hw₁, hs⟩
    | present hf =>
      have hfirst := firstWord_keyword (by decide) hf s
      have hcovariant : dropModifier "covariant" (final ++ s) = final ++ s :=
        dropModifier_of_ne (by decide) (by rw [hfirst]; decide)
      rw [hcovariant, dropModifier_keyword hf hs, hfirst]
      refine ⟨rfl, by decide, ?_⟩
      obtain ⟨hspace⟩ := hf
      intro c hc
      obtain rfl : 'f' = c := Option.some.inj hc
      rfl
  split at hr
  · next h =>
    rw [dropModifier_keyword hr hfinal.2.2, dropModifier?_keyword hr hfinal.2.2]
    exact ⟨by rw [decide_eq_true h]; rfl, hfinal.1⟩
  · next h =>
    rw [hr, List.nil_append, dropModifier_of_ne (by decide) hfinal.2.1,
      dropModifier?_eq_none (by decide) hfinal.2.1]
    exact ⟨by rw [decide_eq_false h]; rfl, hfinal.1⟩

/-! ## Defaults -/

/-- A text without `=` is passed over, at the depth that it leaves. -/
theorem splitDefault?_append {a : List Char} (h : '=' ∉ a) (depth : Nat) (before : Option Char)
    (s : List Char) :
    splitDefault? depth before (a ++ s) =
      (splitDefault? (a.foldl depthAfter depth) (a.getLast?.or before) s).map
        fun r => (a ++ r.1, r.2) := by
  induction a generalizing depth before with
  | nil => simp
  | cons c a ih =>
    obtain ⟨hc, ha⟩ := not_or.1 (fun hm => h (List.mem_cons.2 hm))
    rw [List.cons_append, splitDefault?, if_neg, ih ha, Option.map_map]
    · rw [List.foldl_cons]
      cases hl : a.getLast? with
      | none =>
        rw [List.getLast?_eq_none_iff.1 hl]
        rfl
      | some d =>
        rw [List.getLast?_cons, hl]
        rfl
    · simp [Ne.symm hc]

theorem splitDefault?_of_not_mem {s : List Char} (h : '=' ∉ s) (depth : Nat)
    (before : Option Char) : splitDefault? depth before s = none := by
  have := splitDefault?_append h depth before []
  rw [List.append_nil] at this
  rw [this]
  rfl

/-- A declaration and its default are split at the `=` between them. -/
theorem splitDefault?_written {a s : List Char} (ha : '=' ∉ a) (hn : Nested Bracket.all a)
    (hs : s.head? ≠ some '=' ∧ s.head? ≠ some '>') :
    splitDefault? 0 none (a ++ '=' :: s) = some (a, s) := by
  have hdepth : a.foldl depthAfter 0 = 0 := foldl_depthAfter hn
  have hlast : a.getLast? ≠ some '=' := fun hm => ha (List.mem_of_getLast? hm)
  rw [splitDefault?_append ha, hdepth, splitDefault?, if_pos]
  · simp
  · simp [hlast, hs]

/-- What is read as a default once it is cut out: it is trimmed, and the `=` in front of it belongs
to no operator. -/
structure IsBareDefault (s : List Char) : Prop where
  ne_nil : s ≠ []
  trimmed : trim s = s
  front : s.head? ≠ some '=' ∧ s.head? ≠ some '>'

theorem IsDefaultText.bare {s : List Char} (h : IsDefaultText s) : IsBareDefault s := by
  refine ⟨h.ne_nil, h.trimmed, h.front, fun hc => ?_⟩
  obtain ⟨t, rfl⟩ := List.head?_eq_some_iff.1 hc
  exact absurd (isClosing_of_nested h.guarded.nested) (by decide)

/-! ## Types and names -/

/-- What is read as a type once it is cut out: it is trimmed, on one line and without `=`, and it
does not start like an annotation, a group or a modifier. -/
structure IsBareType (s : List Char) : Prop where
  ne_nil : s ≠ []
  trimmed : trim s = s
  guarded : Guarded s
  plain : ∀ c ∈ s, c ≠ '=' ∧ c ≠ '\n' ∧ c ≠ '\r'
  front : s.head? ≠ some '@' ∧ s.head? ≠ some '[' ∧ s.head? ≠ some '{'
  word : firstWord s ∉ modifiers

instance (s : List Char) : Decidable (IsBareType s) :=
  decidable_of_iff (s ≠ [] ∧ trim s = s ∧ Guarded s ∧
      (∀ c ∈ s, c ≠ '=' ∧ c ≠ '\n' ∧ c ≠ '\r') ∧
      (s.head? ≠ some '@' ∧ s.head? ≠ some '[' ∧ s.head? ≠ some '{') ∧ firstWord s ∉ modifiers)
    ⟨fun ⟨h₁, h₂, h₃, h₄, h₅, h₆⟩ => ⟨h₁, h₂, h₃, h₄, h₅, h₆⟩,
      fun ⟨h₁, h₂, h₃, h₄, h₅, h₆⟩ => ⟨h₁, h₂, h₃, h₄, h₅, h₆⟩⟩

theorem IsTypeText.bare {s : List Char} (h : IsTypeText s) : IsBareType s := by
  refine ⟨h.ne_nil, h.trimmed, h.guarded, fun c hc => ?_, h.front, h.word⟩
  obtain ⟨hequals, -, -, hline⟩ := h.plain c hc
  exact ⟨hequals, hline⟩

/-- A parameter that is read as itself once its piece is cut out. -/
structure IsBareParameter (p : Parameter) : Prop where
  name : identifier.accepts p.name.toList = true
  type : IsBareType p.typeExpression.toList
  default : ∀ d, p.defaultValue = some d → IsBareDefault d.toList

theorem typeAndName?_written {type space name : List Char} (ht : IsBareType type)
    (hs : IsSpace space) (hn : identifier.accepts name = true) :
    typeAndName? (type ++ space ++ name) = some (type, name) := by
  have hblank : ∀ c, (space.reverse ++ type.reverse).head? = some c → isBlank c = true := by
    intro c hc
    rw [List.head?_append] at hc
    cases h : space.reverse.head? with
    | none =>
      rw [List.head?_eq_none_iff, List.reverse_eq_nil_iff] at h
      exact absurd h hs.2
    | some d =>
      rw [h] at hc
      obtain rfl : d = c := Option.some.inj hc
      exact hs.1 d (List.mem_reverse.1 (List.mem_of_head? h))
  have htrim := isTrimmed_of_trim_eq ht.trimmed
  obtain ⟨htake, hdrop⟩ := takeWhile_word (w := name.reverse)
    (fun c hc => isBlank_of_accepts hn c (List.mem_reverse.1 hc)) hblank
  have hspace : (space.reverse ++ type.reverse).dropWhile isBlank = type.reverse := by
    rw [List.dropWhile_append_of_pos fun c hc => hs.1 c (List.mem_reverse.1 hc)]
    exact trimStart_of_head?_ne fun c hc => htrim.2 c (by rwa [List.head?_reverse] at hc)
  have hhead : type.head?.any (!isBlank ·) = true := by
    cases h : type with
    | nil => exact absurd h ht.ne_nil
    | cons c t => simp [htrim.1 c (by rw [h]; rfl)]
  have hline : type.contains '\n' = false := by
    rw [← Bool.not_eq_true, List.contains_iff_mem]
    exact fun hm => (ht.plain _ hm).2.1 rfl
  unfold typeAndName?
  simp only [List.reverse_append, htake, hdrop, hspace, List.reverse_reverse, hn, hhead, hline,
    Bool.not_false, Bool.and_self, if_true]

/-! ## Parameters -/

/-- What a parameter starts with behind the gap: a modifier or its type. -/
theorem head?_modified {required final s : List Char} {isRequired : Prop} [Decidable isRequired]
    (hr : if isRequired then Keyword "required" required else required = [])
    (hf : Optionally (Keyword "final") final) {c : Char}
    (hc : (required ++ (final ++ s)).head? = some c) : c = 'r' ∨ c = 'f' ∨ s.head? = some c := by
  have hfinal : ∀ {c}, (final ++ s).head? = some c → c = 'f' ∨ s.head? = some c := by
    intro c hc
    cases hf with
    | absent => exact .inr hc
    | present hf =>
      obtain ⟨-⟩ := hf
      exact .inl (Option.some.inj hc).symm
  split at hr
  · obtain ⟨-⟩ := hr
    exact .inl (Option.some.inj hc).symm
  · rw [hr] at hc
    exact .inr (hfinal hc)

theorem getLast?_append_of_ne_nil (s : List Char) {t : List Char} (ht : t ≠ []) :
    (s ++ t).getLast? = t.getLast? := by
  rw [List.getLast?_append]
  cases h : t.getLast? with
  | none => exact absurd (List.getLast?_eq_none_iff.1 h) ht
  | some c => rfl

/-- A name and a default end with no blank. -/
theorem getLast?_named {name value : List Char} {default : Option String}
    (hn : identifier.accepts name = true) (hd : ∀ d, default = some d → IsBareDefault d.toList)
    (hv : DefaultWritten default value) {c : Char} (hc : (name ++ value).getLast? = some c) :
    isBlank c = false := by
  cases hv with
  | absent =>
    rw [List.append_nil] at hc
    exact isBlank_of_accepts hn c (List.mem_of_getLast? hc)
  | given hf hb =>
    have hdefault := hd _ rfl
    rw [← List.append_assoc, getLast?_append_of_ne_nil _ hdefault.ne_nil] at hc
    exact (isTrimmed_of_trim_eq hdefault.trimmed).2 c hc

/-- A declaration is parted from its default, if it has one. -/
theorem splitDefault?_defaultWritten {declared value : List Char} {default : Option String}
    (h : '=' ∉ declared) (hn : Nested Bracket.all declared) (ht : IsTrimmed declared)
    (hd : ∀ d, default = some d → IsBareDefault d.toList) (hv : DefaultWritten default value) :
    default = none ∧ value = [] ∧ splitDefault? 0 none declared = none ∨
      ∃ d a b, default = some d ∧ splitDefault? 0 none (declared ++ value) = some (a, b) ∧
        trim a = declared ∧ trim b = d.toList ∧ d.toList ≠ [] := by
  cases hv with
  | absent => exact .inl ⟨rfl, rfl, splitDefault?_of_not_mem h 0 none⟩
  | @given d front back hf hb =>
    have hdefault := hd d rfl
    have htrim := isTrimmed_of_trim_eq hdefault.trimmed
    have hhead : (back ++ d.toList).head? ≠ some '=' ∧ (back ++ d.toList).head? ≠ some '>' := by
      cases back with
      | nil => exact hdefault.front
      | cons c back =>
        have hc : isBlank c = true := hb c List.mem_cons_self
        exact ⟨fun h => ne_of_isBlank hc rfl (Option.some.inj h),
          fun h => ne_of_isBlank hc rfl (Option.some.inj h)⟩
    have hmem : '=' ∉ declared ++ front := by
      rw [List.mem_append, not_or]
      exact ⟨h, hf.not_mem rfl⟩
    have hsplit := splitDefault?_written hmem (nested_append hn (guarded_of_isGap hf).nested) hhead
    have hdeclared := trim_gaps isGap_nil ht hf
    have hvalue := trim_gaps hb htrim isGap_nil
    rw [List.nil_append] at hdeclared
    rw [List.append_nil] at hvalue
    have he : declared ++ (front ++ '=' :: back ++ d.toList) =
        declared ++ front ++ '=' :: (back ++ d.toList) := by
      simp only [List.append_assoc, List.cons_append]
    rw [he]
    exact .inr ⟨d, _, _, rfl, hsplit, hdeclared, hvalue, hdefault.ne_nil⟩

/-- Modifiers in front of a text neither add blanks around it nor make it an annotation. -/
theorem isTrimmed_modified {required final s : List Char} {isRequired : Prop}
    [Decidable isRequired] (hr : if isRequired then Keyword "required" required else required = [])
    (hf : Optionally (Keyword "final") final) (hs : s ≠ []) (ht : IsTrimmed s)
    (hat : s.head? ≠ some '@') :
    IsTrimmed (required ++ (final ++ s)) ∧ (required ++ (final ++ s)).head? ≠ some '@' := by
  refine ⟨⟨fun c hc => ?_, fun c hc => ?_⟩, fun hc => ?_⟩
  · rcases head?_modified hr hf hc with rfl | rfl | hc
    · rfl
    · rfl
    · exact ht.1 c hc
  · rw [← List.append_assoc, getLast?_append_of_ne_nil _ hs] at hc
    exact ht.2 c hc
  · rcases head?_modified hr hf hc with h | h | hc
    · exact absurd h (by decide)
    · exact absurd h (by decide)
    · exact hat hc

theorem dropAnnotations_of_head?_ne {s : List Char} (h : s.head? ≠ some '@') :
    dropAnnotations s = s := by
  have : dropAnnotation? s = none := by
    unfold dropAnnotation?
    split
    · exact absurd rfl h
    · rfl
  rw [dropAnnotations]
  split
  · next he =>
    rw [this] at he
    cases he
  · rfl

/-- **A written parameter is read as itself.** -/
theorem parameter?_of_bare {p : Parameter} (hp : IsBareParameter p) {s : List Char}
    (h : p.WrittenAs s) : Piece.parameter? ⟨s, p.kind.group⟩ = some p := by
  obtain @⟨front, required, final, space, value, back, hf, hr, hm, hs, hv, hb⟩ := h
  have htype := isTrimmed_of_trim_eq hp.type.trimmed
  have hname : p.name.toList ≠ [] := ne_nil_of_accepts hp.name
  have hfirst := firstWord_append hs p.typeExpression.toList (p.name.toList ++ value)
  rw [← List.append_assoc] at hfirst
  -- what is declared, apart from its default
  have hdeclared := isTrimmed_append htype (isTrimmed_of_forall (isBlank_of_accepts hp.name))
    hp.type.ne_nil hname space
  have hnested := nested_append (nested_append hp.type.guarded.nested (guarded_of_isGap hs.1).nested)
    (guarded_of_accepts hp.name).nested
  have hequals : '=' ∉ p.typeExpression.toList ++ space ++ p.name.toList := by
    simp only [List.mem_append, not_or]
    exact ⟨⟨fun hc => (hp.type.plain _ hc).1 rfl, hs.1.not_mem rfl⟩,
      fun hc => ne_of_next (next_of_accepts hp.name hc) rfl rfl⟩
  have htypeAndName := typeAndName?_written hp.type hs hp.name
  have hnonempty : p.typeExpression.toList ++ space ++ p.name.toList ≠ [] :=
    List.append_ne_nil_of_right_ne_nil _ hname
  have hhead : (p.typeExpression.toList ++ space ++ p.name.toList ++ value).head? =
      p.typeExpression.toList.head? := by
    obtain ⟨c, t, ht⟩ := List.exists_cons_of_ne_nil hp.type.ne_nil
    rw [ht]
    rfl
  have hlast : ∀ c, (p.typeExpression.toList ++ space ++ p.name.toList ++ value).getLast? = some c →
      isBlank c = false := by
    intro c hc
    rw [List.append_assoc, getLast?_append_of_ne_nil _ (List.append_ne_nil_of_left_ne_nil hname _)]
      at hc
    exact getLast?_named hp.name hp.default hv hc
  obtain ⟨htrimmed, hannotation⟩ := isTrimmed_modified hr hm
    (List.append_ne_nil_of_left_ne_nil hnonempty value) ⟨by rw [hhead]; exact htype.1, hlast⟩
    (by rw [hhead]; exact hp.type.front.1)
  obtain ⟨hrequired, hdropped⟩ := dropModifiers hr hm (by rw [hhead]; exact htype.1)
    (by rw [hfirst]; exact hp.type.word)
  have hkind : ParamKind.ofGroup (decide (p.kind = .requiredNamed)) p.kind.group = p.kind :=
    ParamKind.ofGroup_group p.kind
  unfold Piece.parameter?
  simp only [trim_gaps hf htrimmed hb, dropAnnotations_of_head?_ne hannotation, hrequired, hdropped,
    hkind]
  rcases splitDefault?_defaultWritten hequals hnested hdeclared hp.default hv with
    ⟨hnone, rfl, hsplit⟩ | ⟨d, a, b, hsome, hsplit, ha, hb, hd⟩
  · rw [List.append_nil, hsplit]
    simp only [htypeAndName, Option.bind_eq_bind, Option.bind_some, String.ofList_toList,
      List.isEmpty_nil, if_true]
    rw [← hnone]
    rfl
  · have hempty : d.toList.isEmpty = false := List.isEmpty_eq_false_iff.2 hd
    rw [hsplit]
    simp only [ha, hb, htypeAndName, Option.bind_eq_bind, Option.bind_some, String.ofList_toList,
      hempty, Bool.false_eq_true, if_false]
    rw [← hsome]
    rfl

theorem parameter?_writtenAs {p : Parameter} (hp : p.WellFormed IsDefaultText) {s : List Char}
    (h : p.WrittenAs s) : Piece.parameter? ⟨s, p.kind.group⟩ = some p :=
  parameter?_of_bare ⟨hp.name, hp.type.bare, fun d hd => (hp.default d hd).bare⟩ h

section

variable {type name front back : List Char} (kind : ParamKind) (hk : kind ≠ .requiredNamed)
  (ht : IsBareType type) (hn : identifier.accepts name = true) (hf : IsGap front) (hb : IsGap back)

include hk ht hn hf hb

/-- So is one that is written without modifiers and with one space in front of its name. -/
theorem parameter?_unmodified {default : Option String} {value : List Char}
    (hv : DefaultWritten default value) (hd : ∀ d, default = some d → IsBareDefault d.toList) :
    Piece.parameter? ⟨front ++ (type ++ ' ' :: (name ++ value)) ++ back, kind.group⟩ =
      some ⟨String.ofList name, String.ofList type, default, kind⟩ := by
  have hbare : IsBareParameter ⟨String.ofList name, String.ofList type, default, kind⟩ := by
    refine ⟨?_, ?_, hd⟩ <;> rwa [String.toList_ofList]
  have hrequired : if kind = .requiredNamed then Keyword "required" []
      else ([] : List Char) = [] := by
    rw [if_neg hk]
  have hwritten := @Parameter.WrittenAs.mk
    ⟨String.ofList name, String.ofList type, default, kind⟩ front [] [] [' '] value back hf
    hrequired .absent (by decide) hv hb
  simp only [String.toList_ofList, List.nil_append, List.append_assoc, List.singleton_append]
    at hwritten
  simp only [List.append_assoc, List.cons_append]
  exact parameter?_of_bare hbare hwritten

/-- The same for one with a default, with one space on either side of the `=`. -/
theorem parameter?_defaulted {default : List Char} (hd : IsBareDefault default) :
    Piece.parameter? ⟨front ++ (type ++ ' ' :: (name ++ (" = ".toList ++ default))) ++ back,
        kind.group⟩ =
      some ⟨String.ofList name, String.ofList type, some (String.ofList default), kind⟩ := by
  have hspace : IsGap [' '] := by decide
  have hvalue : DefaultWritten (some (String.ofList default)) (" = ".toList ++ default) := by
    have := @DefaultWritten.given (String.ofList default) _ _ hspace hspace
    rwa [String.toList_ofList] at this
  refine parameter?_unmodified kind hk ht hn hf hb hvalue fun d h => ?_
  rw [← Option.some.inj h, String.toList_ofList]
  exact hd

end

/-- A written parameter does not start like a group. -/
theorem head?_writtenAs {p : Parameter} (hp : p.WellFormed IsDefaultText) {s : List Char}
    (h : p.WrittenAs s) : ∀ c, (trimStart s).head? = some c → c ≠ '[' ∧ c ≠ '{' := by
  obtain @⟨front, required, final, space, value, back, hf, hr, hm, hs, hv, hb⟩ := h
  intro c hc
  have htype := isTrimmed_of_trim_eq hp.type.trimmed
  obtain ⟨first, type, hfirst⟩ := List.exists_cons_of_ne_nil hp.type.ne_nil
  have hfront := hp.type.front
  rw [hfirst] at hfront htype
  rw [List.append_assoc, trimStart_of_isGap hf, hfirst, List.append_assoc, List.append_assoc,
    trimStart_of_head?_ne] at hc
  · rcases head?_modified hr hm hc with rfl | rfl | hc
    · decide
    · decide
    · obtain rfl : first = c := Option.some.inj hc
      exact ⟨fun h => hfront.2.1 (congrArg some h), fun h => hfront.2.2 (congrArg some h)⟩
  · intro d hd
    rcases head?_modified hr hm hd with rfl | rfl | hd
    · rfl
    · rfl
    · exact htype.1 d hd

/-! ## Parameter lists -/

/-- A gap does not start like a group. -/
theorem head?_gap {gap : List Char} (h : IsGap gap) :
    ∀ c, (trimStart gap).head? = some c → c ≠ '[' ∧ c ≠ '{' := by
  intro c hc
  rw [trimStart_eq_nil_iff.2 (List.all_eq_true.2 h)] at hc
  cases hc

section

variable {p : Parameter} {s gap : List Char}

/-- A written parameter up to its comma. -/
theorem parametersFrom_parameter (hp : p.WellFormed IsDefaultText) (h : p.WrittenAs s) {g : Group}
    (hg : p.kind.group = g) (t : List Char) :
    parametersFrom (.fresh g) (s ++ ',' :: t) = p :: parametersFrom (.fresh g) t := by
  subst hg
  refine (parametersFrom_comma (guarded_writtenAs hp h) rfl (head?_writtenAs hp h) t).trans ?_
  show (Piece.parameter? ⟨s, p.kind.group⟩).toList ++ _ = _
  rw [parameter?_writtenAs hp h]
  rfl

/-- A gap up to the bracket that closes a group. -/
theorem parametersFrom_gap_closing (h : IsGap gap) {g : Group} (hg : g ≠ .positional) {c : Char}
    (hc : c = ']' ∨ c = '}') (t : List Char) :
    parametersFrom (.fresh g) (gap ++ c :: t) = parametersFrom (.closed g) t := by
  rw [parametersFrom_closing hg hc (guarded_of_isGap h) (head?_gap h), parameter?_of_isGap h]
  rfl

/-- A gap at the end of a list. -/
theorem parametersFrom_gap {st : Scan} (h : IsGap gap) (hd : st.depth = 0) :
    parametersFrom st gap = [] := by
  rw [parametersFrom_last (guarded_of_isGap h) hd (head?_gap h), parameter?_of_isGap h]
  rfl

/-- A gap behind a group, up to the comma. -/
theorem parametersFrom_gap_comma (h : IsGap gap) (g : Group) (t : List Char) :
    parametersFrom (.closed g) (gap ++ ',' :: t) = parametersFrom (.fresh .positional) t := by
  rw [parametersFrom_comma (guarded_of_isGap h) rfl (head?_gap h), parameter?_of_isGap h]
  rfl

end

section

variable {ps : List Parameter} {s : List Char}

/-- The parameters of a group are read up to the bracket that closes it. -/
theorem parametersFrom_itemsWritten {g : Group} (hg : g ≠ .positional) {c : Char}
    (hc : c = ']' ∨ c = '}') (h : ItemsWritten ps s) (hp : ∀ p ∈ ps, p.WellFormed IsDefaultText)
    (hk : ∀ p ∈ ps, p.kind.group = g) (t : List Char) :
    parametersFrom (.fresh g) (s ++ c :: t) = ps ++ parametersFrom (.closed g) t := by
  induction h with
  | @last p s h =>
    have hp := hp p List.mem_cons_self
    obtain rfl := hk p List.mem_cons_self
    rw [parametersFrom_closing hg hc (guarded_writtenAs hp h) (head?_writtenAs hp h),
      parameter?_writtenAs hp h]
    rfl
  | @lastComma p s gap h hgap =>
    rw [List.append_assoc, List.cons_append,
      parametersFrom_parameter (hp p List.mem_cons_self) h (hk p List.mem_cons_self),
      parametersFrom_gap_closing hgap hg hc]
    rfl
  | @cons p ps s u h _ ih =>
    rw [List.append_assoc, List.cons_append,
      parametersFrom_parameter (hp p List.mem_cons_self) h (hk p List.mem_cons_self),
      ih (fun q hq => hp q (List.mem_cons_of_mem p hq)) fun q hq => hk q (List.mem_cons_of_mem p hq)]
    rfl

/-- A group is read up to its closing bracket. -/
theorem parametersFrom_group {g : Group} {opening closing : Char}
    (ho : (Scan.fresh .positional).opens? opening = some g) (hc : closing = ']' ∨ closing = '}')
    {front : List Char} (hf : IsGap front) (h : ItemsWritten ps s)
    (hp : ∀ p ∈ ps, p.WellFormed IsDefaultText) (hk : ∀ p ∈ ps, p.kind.group = g)
    (t : List Char) :
    parametersFrom (.fresh .positional) (front ++ opening :: (s ++ closing :: t)) =
      ps ++ parametersFrom (.closed g) t := by
  have hg : g ≠ .positional := by
    rintro rfl
    unfold Scan.opens? at ho
    repeat' split at ho
    all_goals cases ho
  rw [parametersFrom_opening hf ho, parametersFrom_itemsWritten hg hc h hp hk]

/-- A part is read up to its comma, or to the end of the list. -/
theorem parametersFrom_partWritten (h : PartWritten ps s)
    (hp : ∀ p ∈ ps, p.WellFormed IsDefaultText) :
    parametersFrom (.fresh .positional) s = ps ∧ ∀ t,
      parametersFrom (.fresh .positional) (s ++ ',' :: t) =
        ps ++ parametersFrom (.fresh .positional) t := by
  cases h with
  | @positional p s hk h =>
    have hp := hp p List.mem_cons_self
    refine ⟨?_, parametersFrom_parameter hp h hk⟩
    refine (parametersFrom_last (guarded_writtenAs hp h) rfl (head?_writtenAs hp h)).trans ?_
    show (Piece.parameter? ⟨s, .positional⟩).toList = _
    rw [← hk, parameter?_writtenAs hp h]
    rfl
  | @optional _ front s back hk hf h hb =>
    refine ⟨?_, fun t => ?_⟩
    · rw [parametersFrom_group rfl (.inl rfl) hf h hp hk, parametersFrom_gap hb rfl, List.append_nil]
    · rw [List.append_assoc, List.cons_append, List.append_assoc, List.cons_append,
        parametersFrom_group rfl (.inl rfl) hf h hp hk, parametersFrom_gap_comma hb]
  | @named _ front s back hk hf h hb =>
    refine ⟨?_, fun t => ?_⟩
    · rw [parametersFrom_group rfl (.inr rfl) hf h hp hk, parametersFrom_gap hb rfl, List.append_nil]
    · rw [List.append_assoc, List.cons_append, List.append_assoc, List.cons_append,
        parametersFrom_group rfl (.inr rfl) hf h hp hk, parametersFrom_gap_comma hb]

/-- **A written parameter list is read as itself.** -/
theorem parameters_listWritten (h : ListWritten ps s) (hp : ∀ p ∈ ps, p.WellFormed IsDefaultText) :
    parameters s = ps := by
  rw [parameters_eq]
  induction h with
  | nil hgap => exact parametersFrom_gap hgap rfl
  | last h => exact (parametersFrom_partWritten h hp).1
  | @cons ps qs s t h _ ih =>
    rw [(parametersFrom_partWritten h fun p hm => hp p (List.mem_append_left qs hm)).2,
      ih fun p hm => hp p (List.mem_append_right ps hm)]

end

end DartUnion.Source
