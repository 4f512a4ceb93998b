import DartUnion.Proofs.JoinedPieces
import DartUnion.Proofs.LiteralDefault

/-!
# Operators in defaults

`<` and `>` are brackets to the scan of a parameter list, also where they are operators. A `>` too
many is forgiven, since the depth stops at zero, but a `<` too many is not: the comma behind the
default no longer counts, and the default goes on with the parameters behind it. Whether a default
keeps to itself is said here for expressions of numbers, names, round brackets and operators.

* `IsExpression`: such an expression, with any gaps between its tokens.
* `Settled` text opens, from no place on to its end, more brackets than it closes.

Results:
* `foldl_depthAfter_eq_zero_iff`: a scan ends at depth zero exactly behind settled text.
* `IsExpression.depth_le`: without a `<` an expression leaves no bracket open.
* `parametersFrom_settled`, `parametersFrom_unsettled`: a settled default ends with its parameter,
  any other goes on behind it.
* `parameters_operators_iff`: **a list of such parameters is read as itself exactly when every
  default is settled.**
-/

namespace DartUnion

open Text Dart Source

/-- Numbers: a digit, then digits and the letters of hexadecimal numbers. -/
def Dart.integerLiteral : NameClass where
  start c := c.isDigit
  next c := c.isAlphanum

namespace Source

/-- The operators of an expression. -/
def binaryOperators : List String := ["+", "-", "*", "<<", ">>", "<", ">", "<=", ">="]

/-- Expressions of numbers, names, round brackets and operators. -/
inductive IsExpression : List Char → Prop
  | operand {s : List Char} : integerLiteral.accepts s = true ∨ identifier.accepts s = true →
      IsExpression s
  | bracketed {front s back : List Char} : IsGap front → IsExpression s → IsGap back →
      IsExpression ('(' :: (front ++ s ++ back ++ [')']))
  | binary {s front back t : List Char} {operator : String} : IsExpression s → IsGap front →
      operator ∈ binaryOperators → IsGap back → IsExpression t →
      IsExpression (s ++ (front ++ operator.toList ++ back ++ t))

/-- From no place on the text opens more brackets than it closes. -/
def Settled (s : List Char) : Prop := ∀ t, t <:+ s → t.countP isOpening ≤ t.countP isClosing

end Source

/-- A parameter of type `int` with a default. -/
structure IntParameter where
  name : String
  default : String
  deriving Repr, DecidableEq

namespace IntParameter

/-- What is declared. -/
def parameter (p : IntParameter) : Parameter := ⟨p.name, "int", some p.default, .named⟩

/-- The text in front of the default. -/
def front (p : IntParameter) : List Char := "int ".toList ++ (p.name.toList ++ " = ".toList)

/-- The text of the parameter. -/
def text (p : IntParameter) : List Char := p.front ++ p.default.toList

end IntParameter

/-- The parameter list of one named group. -/
def namedList (ps : List IntParameter) : List Char :=
  Group.named.enclosed (", ".toList.intercalate (ps.map IntParameter.text))

namespace Source

/-! ## Depth -/

theorem not_isClosing_of_isOpening {c : Char} (h : isOpening c = true) : isClosing c = false := by
  simp only [isOpening, Bool.or_eq_true, beq_iff_eq] at h
  rcases h with ((rfl | rfl) | rfl) | rfl <;> rfl

theorem settled_cons {c : Char} {s : List Char} : Settled (c :: s) ↔
    (c :: s).countP isOpening ≤ (c :: s).countP isClosing ∧ Settled s := by
  constructor
  · exact fun h => ⟨h _ (List.suffix_refl _), fun t ht => h t (ht.trans (List.suffix_cons c s))⟩
  · rintro ⟨hall, hs⟩ t ht
    rcases List.suffix_cons_iff.1 ht with rfl | ht
    · exact hall
    · exact hs t ht

/-- **A scan ends at depth zero** exactly when the brackets open before it are closed and the text is
settled. -/
theorem foldl_depthAfter_eq_zero_iff {depth : Nat} {s : List Char} :
    s.foldl depthAfter depth = 0 ↔
      depth + s.countP isOpening ≤ s.countP isClosing ∧ Settled s := by
  induction s generalizing depth with
  | nil =>
    have : Settled [] := fun t ht => by rw [List.suffix_nil.1 ht]; exact Nat.le_refl _
    simp [this]
  | cons c s ih =>
    rw [List.foldl_cons, ih, settled_cons]
    by_cases hs : Settled s
    · have hle := hs s (List.suffix_refl s)
      simp only [hs, and_true, List.countP_cons]
      unfold depthAfter
      cases ho : isOpening c with
      | true =>
        simp only [not_isClosing_of_isOpening ho, if_true, Bool.false_eq_true, if_false]
        omega
      | false =>
        cases hc : isClosing c with
        | true =>
          simp only [if_true, Bool.false_eq_true, if_false]
          omega
        | false =>
          simp only [Bool.false_eq_true, if_false]
          omega
    · simp only [hs, and_false]

theorem settled_iff {s : List Char} : Settled s ↔ s.foldl depthAfter 0 = 0 := by
  rw [foldl_depthAfter_eq_zero_iff, Nat.zero_add]
  exact ⟨fun h => ⟨h s (List.suffix_refl s), h⟩, And.right⟩

instance (s : List Char) : Decidable (Settled s) := decidable_of_iff _ settled_iff.symm

/-- Without opening brackets a text leaves a scan no deeper than it was. -/
theorem foldl_depthAfter_le {s : List Char} (h : ∀ c ∈ s, isOpening c = false) (depth : Nat) :
    s.foldl depthAfter depth ≤ depth := by
  induction s generalizing depth with
  | nil => exact Nat.le_refl depth
  | cons c s ih =>
    have hc : depthAfter depth c ≤ depth := by
      unfold depthAfter
      rw [h c List.mem_cons_self, if_neg Bool.false_ne_true]
      split
      · exact Nat.sub_le depth 1
      · exact Nat.le_refl depth
    exact Nat.le_trans (ih (fun d hd => h d (List.mem_cons_of_mem c hd)) _) hc

/-! ## Expressions -/

section

variable {s t : List Char}

theorem next_of_operand (h : integerLiteral.accepts s = true ∨ identifier.accepts s = true) :
    s ≠ [] ∧ ∀ c ∈ s, identifier.next c = true := by
  rcases h with h | h
  · refine ⟨ne_nil_of_accepts h, fun c hc => ?_⟩
    have halphanum : c.isAlphanum = true := by
      cases s with
      | nil => cases h
      | cons d s =>
        simp only [NameClass.accepts, integerLiteral, Bool.and_eq_true, List.all_eq_true] at h
        rcases List.mem_cons.1 hc with rfl | hc
        · exact Bool.or_eq_true_iff.2 (.inr h.1)
        · exact h.2 c hc
    simp only [identifier, halphanum, Bool.true_or]
  · exact ⟨ne_nil_of_accepts h, fun c hc => next_of_accepts h hc⟩

/-- The characters of an expression are those of names, blanks, round brackets and operators. -/
theorem IsExpression.mem (h : IsExpression s) :
    ∀ c ∈ s, identifier.next c = true ∨ isBlank c = true ∨ c ∈ "()+-*<>=".toList := by
  have hoperator : ∀ operator ∈ binaryOperators, ∀ c ∈ operator.toList, c ∈ "()+-*<>=".toList := by
    decide
  induction h with
  | operand h => exact fun c hc => .inl ((next_of_operand h).2 c hc)
  | bracketed hf _ hb ih =>
    intro c hc
    simp only [List.mem_cons, List.mem_append, List.not_mem_nil, or_false] at hc
    rcases hc with rfl | ((hc | hc) | hc) | rfl
    · exact .inr (.inr (by decide))
    · exact .inr (.inl (hf c hc))
    · exact ih c hc
    · exact .inr (.inl (hb c hc))
    · exact .inr (.inr (by decide))
  | binary _ hf ho hb _ ihs iht =>
    intro c hc
    simp only [List.mem_append] at hc
    rcases hc with hc | ((hc | hc) | hc) | hc
    · exact ihs c hc
    · exact .inr (.inl (hf c hc))
    · exact .inr (.inr (hoperator _ ho c hc))
    · exact .inr (.inl (hb c hc))
    · exact iht c hc

/-- An expression holds no other mark. -/
theorem IsExpression.not_mem (h : IsExpression s) {d : Char} (hn : identifier.next d = false)
    (hb : isBlank d = false) (hm : d ∉ "()+-*<>=".toList) : d ∉ s := by
  intro hd
  rcases h.mem d hd with hc | hc | hc
  · exact ne_of_next hc hn rfl
  · exact ne_of_isBlank hc hb rfl
  · exact hm hc

/-- An expression is a text that a default can be. -/
theorem IsExpression.bare (h : IsExpression s) : IsBareDefault s := by
  induction h with
  | operand h =>
    obtain ⟨hne, hnext⟩ := next_of_operand h
    refine ⟨hne, trim_of_isTrimmed (isTrimmed_of_forall fun c hc => isBlank_of_next (hnext c hc)),
      fun hc => ?_, fun hc => ?_⟩
    · exact ne_of_next (hnext _ (List.mem_of_head? hc)) rfl rfl
    · exact ne_of_next (hnext _ (List.mem_of_head? hc)) rfl rfl
  | @bracketed front s back _ _ _ _ =>
    refine ⟨List.cons_ne_nil _ _, trim_of_isTrimmed ?_, by simp⟩
    have hopening : IsTrimmed ['('] := isTrimmed_of_forall (by decide)
    have hclosing : IsTrimmed [')'] := isTrimmed_of_forall (by decide)
    exact isTrimmed_append hopening hclosing (List.cons_ne_nil _ _) (List.cons_ne_nil _ _)
      (front ++ s ++ back)
  | @binary s front back t operator _ _ _ _ _ ihs iht =>
    have htrimmed := isTrimmed_append (isTrimmed_of_trim_eq ihs.trimmed)
      (isTrimmed_of_trim_eq iht.trimmed) ihs.ne_nil iht.ne_nil (front ++ operator.toList ++ back)
    rw [List.append_assoc] at htrimmed
    refine ⟨List.append_ne_nil_of_left_ne_nil ihs.ne_nil _, trim_of_isTrimmed htrimmed, ?_⟩
    obtain ⟨c, u, rfl⟩ := List.exists_cons_of_ne_nil ihs.ne_nil
    exact ihs.front

/-- **Without a `<` an expression leaves no bracket open.** -/
theorem IsExpression.depth_le (h : IsExpression s) (hless : '<' ∉ s) (depth : Nat) :
    s.foldl depthAfter depth ≤ depth := by
  have hoperator : ∀ operator ∈ binaryOperators, '<' ∉ operator.toList →
      ∀ c ∈ operator.toList, isOpening c = false := by
    decide
  have hgap : ∀ {gap : List Char}, IsGap gap → ∀ depth, gap.foldl depthAfter depth ≤ depth :=
    fun hg => foldl_depthAfter_le fun c hc => (neutral_of_isBlank (hg c hc)).1
  induction h generalizing depth with
  | operand h =>
    exact foldl_depthAfter_le (fun c hc => (neutral_of_next ((next_of_operand h).2 c hc)).1) depth
  | @bracketed front s back hf _ hb ih =>
    simp only [List.mem_cons, List.mem_append, not_or] at hless
    rw [List.foldl_cons, List.foldl_append, List.foldl_append, List.foldl_append]
    have hinner := Nat.le_trans (hgap hb _) (Nat.le_trans (ih hless.2.1.1.2 _) (hgap hf (depth + 1)))
    exact Nat.sub_le_of_le_add hinner
  | @binary s front back t operator _ hf ho hb _ ihs iht =>
    simp only [List.mem_append, not_or] at hless
    rw [List.foldl_append, List.foldl_append, List.foldl_append, List.foldl_append]
    refine Nat.le_trans (iht hless.2.2 _) (Nat.le_trans (hgap hb _) ?_)
    refine Nat.le_trans (foldl_depthAfter_le (hoperator _ ho hless.2.1.1.2) _) ?_
    exact Nat.le_trans (hgap hf _) (ihs hless.1 depth)

theorem IsExpression.settled (h : IsExpression s) (hless : '<' ∉ s) : Settled s :=
  settled_iff.2 (Nat.le_zero.1 (h.depth_le hless 0))

end

/-! ## One parameter -/

/-- Without a comma and a closing bracket of a group a text is cut nowhere in the named group. -/
theorem quiet_within {s : List Char} (h : ∀ c ∈ s, c ≠ ',' ∧ c ≠ ']' ∧ c ≠ '}') (depth : Nat) :
    Quiet (.within depth) s ∧ (Scan.within depth).run s = .within (s.foldl depthAfter depth) := by
  induction s generalizing depth with
  | nil => exact ⟨trivial, rfl⟩
  | cons c s ih =>
    have hcuts := (cuts_within_iff depth c).2 fun _ => h c List.mem_cons_self
    have hrest := ih (fun d hd => h d (List.mem_cons_of_mem c hd)) (depthAfter depth c)
    rw [← after_within hcuts] at hrest
    exact ⟨⟨hcuts, hrest.1⟩, hrest.2⟩

/-- A text that goes on behind a default is one that a default can be, up to the blanks at its end. -/
theorem IsBareDefault.trim_append {s : List Char} (h : IsBareDefault s) (t : List Char) :
    IsBareDefault (trim (s ++ t)) ∧ ∃ back, IsGap back ∧ s ++ t = trim (s ++ t) ++ back := by
  obtain ⟨c, u, rfl⟩ := List.exists_cons_of_ne_nil h.ne_nil
  have hc : isBlank c = false := (isTrimmed_of_trim_eq h.trimmed).1 c rfl
  obtain ⟨front, back, hf, hb, hs⟩ := eq_gaps_trim (c :: u ++ t)
  cases front with
  | cons d front =>
    obtain rfl : c = d := (List.cons.inj hs).1
    exact absurd rfl (ne_of_isBlank (hf c List.mem_cons_self) hc)
  | nil =>
    rw [List.nil_append] at hs
    cases htrim : trim (c :: u ++ t) with
    | nil =>
      rw [htrim] at hs
      refine absurd (hb c ?_) (by simp [hc])
      rw [← List.nil_append back, ← hs]
      exact List.mem_cons_self
    | cons d v =>
      rw [htrim] at hs
      obtain rfl : c = d := (List.cons.inj hs).1
      refine ⟨⟨List.cons_ne_nil c v, ?_, h.front⟩, back, hb, hs⟩
      rw [← htrim]
      exact trim_of_isTrimmed (isTrimmed_trim _)

section

variable {p : IntParameter} {gap : List Char} (hn : identifier.accepts p.name.toList = true)
  (hg : IsGap gap)

include hn hg

/-- The scan reaches the default within a piece of the named group. -/
theorem quiet_front : Quiet (.fresh .named) (gap ++ p.front) ∧
    (Scan.fresh .named).run (gap ++ p.front) = .within 0 := by
  have hguarded : Guarded (gap ++ p.front) :=
    guarded_append (guarded_of_isGap hg)
      (guarded_append (by decide) (guarded_append (guarded_of_accepts hn) (by decide)))
  have htrim : trimStart (gap ++ p.front) = p.front := by
    rw [trimStart_of_isGap hg]
    rfl
  refine quiet_fresh hguarded (fun c hc => ?_) ?_
  · rw [htrim] at hc
    obtain rfl : 'i' = c := Option.some.inj hc
    decide
  · rw [← Bool.not_eq_true, ← trimStart_eq_nil_iff, htrim]
    exact List.cons_ne_nil _ _

/-- A piece is read as the parameter, whatever its default. -/
theorem parameter?_front {default back : List Char} (hd : IsBareDefault default) (hb : IsGap back) :
    Piece.parameter? ⟨gap ++ (p.front ++ (default ++ back)), .named⟩ =
      some ⟨p.name, "int", some (String.ofList default), .named⟩ := by
  have hread := parameter?_defaulted .named nofun (by decide : IsBareType "int".toList) hn hg hb hd
  have htext : gap ++ (p.front ++ (default ++ back)) =
      gap ++ ("int".toList ++ ' ' :: (p.name.toList ++ (" = ".toList ++ default))) ++ back := by
    simp [IntParameter.front]
  rw [htext]
  rwa [String.ofList_toList] at hread

variable (he : IsExpression p.default.toList)

include he

/-- The default is cut nowhere, and only the depth that it leaves counts behind it. -/
theorem quiet_text : Quiet (.fresh .named) (gap ++ p.text) ∧
    (Scan.fresh .named).run (gap ++ p.text) = .within (p.default.toList.foldl depthAfter 0) := by
  obtain ⟨hfront, hrun⟩ := quiet_front hn hg
  have hmarks : ∀ c ∈ p.default.toList, c ≠ ',' ∧ c ≠ ']' ∧ c ≠ '}' := by
    intro c hc
    refine ⟨?_, ?_, ?_⟩ <;>
      (rintro rfl; exact he.not_mem (by decide) (by decide) (by decide) hc)
  obtain ⟨hquiet, hdepth⟩ := quiet_within hmarks 0
  rw [IntParameter.text, ← List.append_assoc]
  rw [← hrun] at hquiet hdepth
  exact ⟨quiet_append hfront hquiet, by rw [run_append, hdepth]⟩

/-- **A settled default ends with its parameter**, at the mark behind it. -/
theorem parametersFrom_settled (hs : Settled p.default.toList) {c : Char} (hc : c = ',' ∨ c = '}')
    (s : List Char) : parametersFrom (.fresh .named) (gap ++ (p.text ++ c :: s)) =
      p.parameter :: parametersFrom ((Scan.within 0).after c) s := by
  obtain ⟨hquiet, hrun⟩ := quiet_text hn hg he
  rw [settled_iff.1 hs] at hrun
  have hcuts : (Scan.within 0).cuts c = true := by rcases hc with rfl | rfl <;> rfl
  have hread := parameter?_front hn hg he.bare isGap_nil
  rw [List.append_nil, String.ofList_toList] at hread
  rw [← List.append_assoc, parametersFrom_cut hquiet (by rw [hrun]; exact hcuts), hrun]
  exact congrArg (Option.toList · ++ _) hread

/-- **Any other default goes on** behind its parameter, up to some later end. -/
theorem parametersFrom_unsettled (hs : ¬ Settled p.default.toList) (c : Char) (s : List Char) :
    ∃ more qs, parametersFrom (.fresh .named) (gap ++ (p.text ++ c :: s)) =
      ⟨p.name, "int", some (String.ofList (trim (p.default.toList ++ c :: more))), .named⟩ :: qs := by
  obtain ⟨n, hdeep⟩ := Nat.exists_eq_succ_of_ne_zero (mt settled_iff.2 hs)
  obtain ⟨hquiet, hrun⟩ := quiet_text hn hg he
  rw [hdeep] at hrun
  have hcuts : (Scan.within (n + 1)).cuts c = false :=
    (cuts_within_iff (n + 1) c).2 fun hzero => absurd hzero (Nat.succ_ne_zero n)
  have hall : Quiet (.fresh .named) (gap ++ p.text ++ [c]) :=
    quiet_append hquiet (by rw [hrun]; exact ⟨hcuts, trivial⟩)
  have hread := parametersFrom_append hall s
  generalize (cutPieces _ s).1.text = more at hread
  obtain ⟨hbare, back, hb, hwhole⟩ := he.bare.trim_append (c :: more)
  have hpiece : gap ++ p.text ++ [c] ++ more =
      gap ++ (p.front ++ (trim (p.default.toList ++ c :: more) ++ back)) := by
    rw [← hwhole, IntParameter.text]
    simp only [List.append_assoc, List.singleton_append]
  rw [hpiece] at hread
  change _ = (Piece.parameter? ⟨_, .named⟩).toList ++ _ at hread
  rw [parameter?_front hn hg hbare hb, List.append_assoc, List.append_assoc] at hread
  exact ⟨more, _, hread⟩

/-- So what is read then is not the parameter, since the mark behind it is no part of its default. -/
theorem parametersFrom_ne_of_unsettled (hs : ¬ Settled p.default.toList) {c : Char}
    (hc : c = ',' ∨ c = '}') (s : List Char) (qs : List Parameter) :
    parametersFrom (.fresh .named) (gap ++ (p.text ++ c :: s)) ≠ p.parameter :: qs := by
  intro h
  obtain ⟨more, rest, hread⟩ := parametersFrom_unsettled hn hg he hs c s
  rw [hread] at h
  have hdefault := congrArg Parameter.defaultValue (List.cons.inj h).1
  have htext := congrArg String.toList (Option.some.inj hdefault)
  rw [String.toList_ofList] at htext
  have hmem : c ∈ p.default.toList := by
    rw [← htext]
    exact mem_trim (by rcases hc with rfl | rfl <;> rfl) (by simp)
  rcases hc with rfl | rfl
  · exact he.not_mem (by decide) (by decide) (by decide) hmem
  · exact he.not_mem (by decide) (by decide) (by decide) hmem

end

/-! ## All parameters -/

variable {ps : List IntParameter}

/-- The parameters of the group are read as themselves exactly when all defaults are settled. -/
theorem parametersFrom_texts_iff (hn : ∀ p ∈ ps, identifier.accepts p.name.toList = true)
    (he : ∀ p ∈ ps, IsExpression p.default.toList) {gap : List Char} (hg : IsGap gap) :
    parametersFrom (.fresh .named)
        (gap ++ (", ".toList.intercalate (ps.map IntParameter.text) ++ ['}'])) =
      ps.map IntParameter.parameter ↔ ∀ p ∈ ps, Settled p.default.toList := by
  have hend : parametersFrom (.closed .named) [] = [] := parametersFrom_gap isGap_nil rfl
  induction ps generalizing gap with
  | nil =>
    have hempty := parametersFrom_gap_closing hg (g := .named) (by decide) (.inr rfl) []
    exact iff_of_true (hempty.trans hend) (by simp)
  | cons p ps ih =>
    have hname := hn p List.mem_cons_self
    have hexpression := he p List.mem_cons_self
    rw [List.forall_mem_cons]
    cases ps with
    | nil =>
      rw [List.map_singleton, List.map_singleton, List.intercalate_singleton]
      by_cases hs : Settled p.default.toList
      · have hread := parametersFrom_settled hname hg hexpression hs (.inr rfl) []
        exact iff_of_true (hread.trans (congrArg _ hend)) ⟨hs, by simp⟩
      · have hread := parametersFrom_ne_of_unsettled hname hg hexpression hs (.inr rfl) [] []
        exact iff_of_false hread fun h => hs h.1
    | cons q ps =>
      have hcomma : ", ".toList.intercalate ((p :: q :: ps).map IntParameter.text) ++ ['}'] =
          p.text ++ ',' :: ([' '] ++
            (", ".toList.intercalate ((q :: ps).map IntParameter.text) ++ ['}'])) := by
        rw [List.map_cons, List.map_cons, List.intercalate_cons_cons, List.append_assoc,
          List.append_assoc]
        rfl
      have hrest := ih (fun r hr => hn r (List.mem_cons_of_mem p hr))
        (fun r hr => he r (List.mem_cons_of_mem p hr)) (by decide : IsGap [' '])
      rw [hcomma]
      by_cases hs : Settled p.default.toList
      · have hafter : (Scan.within 0).after ',' = .fresh .named := rfl
        rw [parametersFrom_settled hname hg hexpression hs (.inl rfl), hafter]
        exact (List.cons_inj_right _).trans (hrest.trans ⟨fun h => ⟨hs, h⟩, And.right⟩)
      · have hread := parametersFrom_ne_of_unsettled hname hg hexpression hs (.inl rfl)
        exact iff_of_false (hread _ _) fun h => hs h.1

theorem parameters_namedList_iff (hn : ∀ p ∈ ps, identifier.accepts p.name.toList = true)
    (he : ∀ p ∈ ps, IsExpression p.default.toList) :
    parameters (namedList ps) = ps.map IntParameter.parameter ↔
      ∀ p ∈ ps, Settled p.default.toList := by
  have hread := parametersFrom_texts_iff hn he isGap_nil
  rw [List.nil_append] at hread
  rwa [namedList, parameters_enclosed, Group.closing]

/-- **A list is read as itself exactly when every default is settled**, so operators other than
those with a `<` never swallow anything. -/
theorem parameters_operators_iff (hn : ∀ p ∈ ps, identifier.accepts p.name.toList = true)
    (he : ∀ p ∈ ps, IsExpression p.default.toList) :
    (parameters (namedList ps) = ps.map IntParameter.parameter ↔
      ∀ p ∈ ps, Settled p.default.toList) ∧
    ((∀ p ∈ ps, '<' ∉ p.default.toList) →
      parameters (namedList ps) = ps.map IntParameter.parameter) := by
  refine ⟨parameters_namedList_iff hn he, fun hless => ?_⟩
  exact (parameters_namedList_iff hn he).2 fun p hp => (he p hp).settled (hless p hp)

/-- Two parameters whose operators all keep to themselves: the `<` of the first default is closed by
the bracket behind it, and that by the shift. -/
theorem parameters_operators_iff_shift :
    (∀ p ∈ [⟨"a", "(1 < n) >> 0x2F"⟩, ⟨"b", "a - 1 >= 3"⟩], identifier.accepts
      (IntParameter.name p).toList = true) ∧
    (∀ p ∈ [⟨"a", "(1 < n) >> 0x2F"⟩, ⟨"b", "a - 1 >= 3"⟩],
      IsExpression (IntParameter.default p).toList) ∧
    parameters (namedList [⟨"a", "(1 < n) >> 0x2F"⟩, ⟨"b", "a - 1 >= 3"⟩]) =
      [⟨"a", "int", some "(1 < n) >> 0x2F", .named⟩, ⟨"b", "int", some "a - 1 >= 3", .named⟩] := by
  have hnames : ∀ p ∈ [⟨"a", "(1 < n) >> 0x2F"⟩, ⟨"b", "a - 1 >= 3"⟩], identifier.accepts
      (IntParameter.name p).toList = true := by decide
  have hcomparison : IsExpression "1 < n".toList :=
    @IsExpression.binary ['1'] [' '] [' '] ['n'] "<" (.operand (.inl rfl)) (by decide) (by decide)
      (by decide) (.operand (.inr rfl))
  have hshift : IsExpression "(1 < n) >> 0x2F".toList :=
    @IsExpression.binary "(1 < n)".toList [' '] [' '] "0x2F".toList ">>"
      (.bracketed isGap_nil hcomparison isGap_nil) (by decide) (by decide) (by decide)
      (.operand (.inl rfl))
  have hdifference : IsExpression "a - 1".toList :=
    @IsExpression.binary ['a'] [' '] [' '] ['1'] "-" (.operand (.inr rfl)) (by decide) (by decide)
      (by decide) (.operand (.inl rfl))
  have hbound : IsExpression "a - 1 >= 3".toList :=
    @IsExpression.binary "a - 1".toList [' '] [' '] ['3'] ">=" hdifference (by decide) (by decide)
      (by decide) (.operand (.inl rfl))
  have hexpressions : ∀ p ∈ [⟨"a", "(1 < n) >> 0x2F"⟩, ⟨"b", "a - 1 >= 3"⟩],
      IsExpression (IntParameter.default p).toList :=
    List.forall_mem_cons.2 ⟨hshift, List.forall_mem_cons.2 ⟨hbound, by simp⟩⟩
  exact ⟨hnames, hexpressions, (parameters_operators_iff hnames hexpressions).1.2 (by decide)⟩

/-- A comparison swallows the parameter behind it and the bracket of the group. -/
theorem parameters_operators_less :
    IsExpression "1 < 2".toList ∧ IsExpression "3".toList ∧
      identifier.accepts "a".toList = true ∧ identifier.accepts "b".toList = true ∧
      namedList [⟨"a", "1 < 2"⟩, ⟨"b", "3"⟩] = "\x7bint a = 1 < 2, int b = 3\x7d".toList ∧
      parameters (namedList [⟨"a", "1 < 2"⟩, ⟨"b", "3"⟩]) =
        [⟨"a", "int", some "1 < 2, int b = 3\x7d", .named⟩] := by
  have hcomparison : IsExpression "1 < 2".toList :=
    @IsExpression.binary ['1'] [' '] [' '] ['2'] "<" (.operand (.inl rfl)) (by decide) (by decide)
      (by decide) (.operand (.inl rfl))
  refine ⟨hcomparison, .operand (.inl rfl), by decide, by decide, by decide, ?_⟩
  decide +kernel

end Source

end DartUnion
