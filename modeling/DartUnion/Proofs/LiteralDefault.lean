import DartUnion.Proofs.CleanText
import DartUnion.Proofs.KeptText
import DartUnion.Proofs.Recovery

/-!
# String literals as defaults

Comments are looked for outside of string literals only, but the stages behind them do not know
literals: a semicolon within one ends the statement, a bracket within one is counted, and a comma or
a closing bracket at depth zero ends the piece. So a literal comes through as a default exactly when
none of this happens. What the text of the literal must satisfy is said here, and both directions
are proved for the source `class U { factory U.l({String p = 'c'}) = C; }`.

* `Unbroken` text is cut nowhere within a group and closes what it opens.
* `stripComments_literal`: a literal is kept, whatever comment markers it holds.
* `parameters_literal_iff`: **the list is read right exactly when the text is unbroken.**
* `ofSource_literal_iff`: **the default survives exactly when** the text has no semicolon, its round
  brackets are nested and it is unbroken.
-/

namespace DartUnion

open Text Dart Source

/-! ## The source -/

/-- The source of a union with one case whose only parameter defaults to a literal. -/
def literalSource (union label name typeName text : String) : String :=
  "class " ++ union ++ " \x7b factory " ++ union ++ "." ++ label ++ "(\x7bString " ++ name ++ " = '" ++
    text ++ "'\x7d) = " ++ typeName ++ "; \x7d"

/-- The parameter of the case. -/
def literalParameter (name text : String) : Parameter :=
  ⟨name, "String", some ("'" ++ text ++ "'"), .named⟩

/-- The union that the source is meant to declare. -/
def literalDeclaration (union label name typeName text : String) : Declaration :=
  ⟨union, [⟨typeName, label, [literalParameter name text]⟩]⟩

namespace Source

/-- What stands between quotes as it is: no quote, no backslash and no line end. -/
def IsLiteralText (s : List Char) : Prop :=
  ∀ c ∈ s, c ≠ '\'' ∧ c ≠ '"' ∧ c ≠ '\\' ∧ c ≠ '\n' ∧ c ≠ '\r'

instance (s : List Char) : Decidable (IsLiteralText s) := inferInstanceAs (Decidable (∀ c ∈ s, _))

/-- Scanned at some depth within a group, the text is cut nowhere and closes what it opens. -/
def Unbroken : Nat → List Char → Prop
  | depth, [] => depth = 0
  | depth, c :: s => (depth = 0 → c ≠ ',' ∧ c ≠ ']' ∧ c ≠ '}') ∧ Unbroken (depthAfter depth c) s

instance decidableUnbroken : (depth : Nat) → (s : List Char) → Decidable (Unbroken depth s)
  | depth, [] => inferInstanceAs (Decidable (depth = 0))
  | depth, c :: s =>
    have := decidableUnbroken (depthAfter depth c) s
    inferInstanceAs (Decidable ((depth = 0 → c ≠ ',' ∧ c ≠ ']' ∧ c ≠ '}') ∧ _))

/-! ## Comments -/

/-- A text without quotes and slashes is kept. -/
theorem stripComments_append {a : List Char} (h : ∀ c ∈ a, c ≠ '\'' ∧ c ≠ '"' ∧ c ≠ '/')
    (s : List Char) : stripComments (a ++ s) = a ++ stripComments s := by
  induction a with
  | nil => rfl
  | cons c a ih =>
    obtain ⟨h₁, h₂, h₃⟩ := h c List.mem_cons_self
    have hnext : nextLexeme c (a ++ s) = (.plain c, a ++ s) := by
      simp [nextLexeme, h₁, h₂, h₃]
    unfold stripComments at *
    rw [List.cons_append, lexemes, hnext, List.flatMap_cons, List.cons_append]
    exact congrArg (c :: ·) (ih fun d hd => h d (List.mem_cons_of_mem c hd))

/-- **A literal is kept**, whatever comment markers it holds. -/
theorem stripComments_literal {text : List Char} (h : ∀ c ∈ text, c ≠ '\'' ∧ c ≠ '\\' ∧ c ≠ '\n')
    (s : List Char) :
    stripComments ('\'' :: (text ++ '\'' :: s)) = '\'' :: (text ++ '\'' :: stripComments s) := by
  have hbody : IsLiteralBody '\'' (text ++ []) := .bare_append h .nil
  rw [List.append_nil] at hbody
  have hkept := stripComments_of_isLiteral ⟨'\'', text, .inl rfl, hbody, rfl⟩ s
  rwa [List.cons_append, List.cons_append, List.append_assoc, List.append_assoc] at hkept

/-! ## The parameter list -/

/-- The state of a scan within a piece of the named group. -/
def Scan.within (depth : Nat) : Scan :=
  { depth := depth, inside := .named, group := .named, blank := false }

theorem cuts_within_iff (depth : Nat) (c : Char) :
    (Scan.within depth).cuts c = false ↔ (depth = 0 → c ≠ ',' ∧ c ≠ ']' ∧ c ≠ '}') := by
  have hopens : (Scan.within depth).opens? c = none := by
    unfold Scan.opens?
    rw [if_neg]
    simp [Scan.within]
  rw [Scan.cuts, hopens]
  simp only [Scan.closes, Scan.separates, Scan.within, Option.isSome_none, Bool.false_or,
    Bool.or_eq_false_iff, Bool.and_eq_false_iff, beq_eq_false_iff_ne]
  by_cases hd : depth = 0
  · simp [hd, and_comm]
  · simp [hd]

theorem after_within {depth : Nat} {c : Char} (h : (Scan.within depth).cuts c = false) :
    (Scan.within depth).after c = .within (depthAfter depth c) := by
  rw [after_of_not_cuts h]
  rfl

/-- Unbroken text is quiet and leaves the scan where it was. -/
theorem quiet_of_unbroken {depth : Nat} {s : List Char} (h : Unbroken depth s) :
    Quiet (.within depth) s ∧ (Scan.within depth).run s = .within 0 := by
  induction s generalizing depth with
  | nil =>
    obtain rfl : depth = 0 := h
    exact ⟨trivial, rfl⟩
  | cons c s ih =>
    have hcuts := (cuts_within_iff depth c).2 h.1
    have hrest := ih h.2
    rw [← after_within hcuts] at hrest
    exact ⟨⟨hcuts, hrest.1⟩, hrest.2⟩

/-- Text that is not unbroken is cut somewhere, or leaves a bracket open. -/
theorem cut_of_not_unbroken {depth : Nat} {s : List Char} (h : ¬ Unbroken depth s) :
    (∃ x c y, s = x ++ c :: y ∧ Quiet (.within depth) x ∧
      ((Scan.within depth).run x).cuts c = true) ∨
    (Quiet (.within depth) s ∧ ∃ n, (Scan.within depth).run s = .within (n + 1)) := by
  induction s generalizing depth with
  | nil =>
    obtain ⟨n, rfl⟩ := Nat.exists_eq_succ_of_ne_zero (show depth ≠ 0 from h)
    exact .inr ⟨trivial, n, rfl⟩
  | cons c s ih =>
    cases hcuts : (Scan.within depth).cuts c with
    | true => exact .inl ⟨[], c, s, rfl, trivial, hcuts⟩
    | false =>
      have hrest : ¬ Unbroken (depthAfter depth c) s :=
        fun hs => h ⟨(cuts_within_iff depth c).1 hcuts, hs⟩
      rcases ih hrest with ⟨x, d, y, rfl, hx, hd⟩ | ⟨hs, n, hn⟩
      · rw [← after_within hcuts] at hx hd
        exact .inl ⟨c :: x, d, y, rfl, ⟨hcuts, hx⟩, hd⟩
      · rw [← after_within hcuts] at hs hn
        exact .inr ⟨⟨hcuts, hs⟩, n, hn⟩

theorem quiet_append {st : Scan} {s t : List Char} (hs : Quiet st s) (ht : Quiet (st.run s) t) :
    Quiet st (s ++ t) := by
  induction s generalizing st with
  | nil => exact ht
  | cons c s ih => exact ⟨hs.1, ih hs.2 ht⟩

theorem run_append (st : Scan) (s t : List Char) : st.run (s ++ t) = (st.run s).run t :=
  List.foldl_append

/-- Guarded text takes a scan that starts afresh in the named group into a piece of it. -/
theorem quiet_fresh {s : List Char} (h : Guarded s)
    (hfront : ∀ c, (trimStart s).head? = some c → c ≠ '[' ∧ c ≠ '{') (hblank : allBlank s = false) :
    Quiet (.fresh .named) s ∧ (Scan.fresh .named).run s = .within 0 := by
  obtain ⟨hquiet, hrun⟩ := @quiet_of_guarded (.fresh .named) s h rfl hfront
  refine ⟨hquiet, ?_⟩
  rw [hrun, hblank]
  rfl

section

variable {name text : List Char}

/-- The declaration in front of the text of the literal. -/
def literalFront (name : List Char) : List Char := "String ".toList ++ (name ++ " = '".toList)

/-- The scan reaches the text within a piece of the named group. -/
theorem quiet_literalFront (hn : identifier.accepts name = true) :
    Quiet (.fresh .named) (literalFront name) ∧
      (Scan.fresh .named).run (literalFront name) = .within 0 := by
  have hguarded : Guarded (literalFront name) :=
    guarded_append (by decide) (guarded_append (guarded_of_accepts hn) (by decide))
  refine quiet_fresh hguarded (fun c hc => ?_) rfl
  obtain rfl : 'S' = c := Option.some.inj hc
  decide

/-- Quotes enclose a text that a default can be. -/
theorem isBareDefault_quoted {s : List Char} (hs : ∀ c, s.getLast? = some c → isBlank c = false)
    (hne : s ≠ []) : IsBareDefault ('\'' :: s) := by
  refine ⟨List.cons_ne_nil _ _, trim_of_isTrimmed ⟨fun c hc => ?_, fun c hc => hs c ?_⟩, ?_⟩
  · obtain rfl : '\'' = c := Option.some.inj hc
    rfl
  · rwa [← List.singleton_append, getLast?_append_of_ne_nil _ hne] at hc
  · exact ⟨by simp, by simp⟩

end

section

variable {name text : String}

/-- A part of the list that lacks one of the two quotes does not hold the literal. -/
theorem not_mem_of_count (ht : '\'' ∉ text.toList) {s : List Char} (hs : s.count '\'' < 2)
    (st : Scan) : literalParameter name text ∉ parametersFrom st s := by
  intro hm
  have hle := (sublist_of_mem_parametersFrom hm
    (.default (d := "'" ++ text ++ "'") rfl)).count_le '\''
  have hquote : "'".toList.count '\'' = 1 := by decide
  rw [String.toList_append, String.toList_append, List.count_append, List.count_append,
    List.count_eq_zero_of_not_mem ht, hquote] at hle
  omega

variable (hn : identifier.accepts name.toList = true)

include hn

/-- The declaration of a parameter with a default that starts with a quote. -/
theorem parameter?_quoted {s : List Char} (hs : IsBareDefault ('\'' :: s)) :
    Piece.parameter? ⟨literalFront name.toList ++ s, .named⟩ =
      some ⟨name, "String", some (String.ofList ('\'' :: s)), .named⟩ := by
  have hread := parameter?_defaulted .named nofun (by decide : IsBareType "String".toList) hn
    isGap_nil isGap_nil hs
  rw [String.ofList_toList, List.append_nil] at hread
  unfold literalFront
  rw [List.append_assoc, List.append_assoc]
  exact hread

theorem count_literalFront {s : List Char} (hs : '\'' ∉ s) :
    (literalFront name.toList ++ s).count '\'' = 1 := by
  have hname : '\'' ∉ name.toList := fun hc => ne_of_next (next_of_accepts hn hc) rfl rfl
  have hfront : "String ".toList.count '\'' = 0 := by decide
  have hquote : " = '".toList.count '\'' = 1 := by decide
  unfold literalFront
  simp only [List.count_append, List.count_eq_zero_of_not_mem hs,
    List.count_eq_zero_of_not_mem hname, hfront, hquote]

omit hn in
theorem isBareDefault_literal (text : String) :
    IsBareDefault ('\'' :: (text.toList ++ ['\''])) ∧
      IsBareDefault ('\'' :: (text.toList ++ ['\'', '}'])) := by
  refine ⟨isBareDefault_quoted (fun c hc => ?_) (by simp), isBareDefault_quoted (fun c hc => ?_)
    (by simp)⟩
  · rw [getLast?_append_of_ne_nil _ (List.cons_ne_nil _ _)] at hc
    obtain rfl : '\'' = c := Option.some.inj hc
    rfl
  · rw [getLast?_append_of_ne_nil _ (List.cons_ne_nil _ _)] at hc
    obtain rfl : '}' = c := Option.some.inj hc
    rfl

/-- Unbroken text is read as the default. -/
theorem parametersFrom_of_unbroken (h : Unbroken 0 text.toList) :
    parametersFrom (.fresh .named) (literalFront name.toList ++ (text.toList ++ ['\'', '}'])) =
      [literalParameter name text] := by
  obtain ⟨hfront, hrun⟩ := quiet_literalFront hn
  obtain ⟨hquiet, hback⟩ := quiet_of_unbroken h
  have hquote : Quiet (.within 0) ['\''] ∧ (Scan.within 0).run ['\''] = .within 0 :=
    ⟨⟨rfl, trivial⟩, rfl⟩
  have hpiece : Quiet (.fresh .named) (literalFront name.toList ++ (text.toList ++ ['\''])) :=
    quiet_append hfront (by rw [hrun]; exact quiet_append hquiet (by rw [hback]; exact hquote.1))
  have hstate : (Scan.fresh .named).run (literalFront name.toList ++ (text.toList ++ ['\''])) =
      .within 0 := by
    rw [run_append, run_append, hrun, hback, hquote.2]
  have hdefault : String.ofList ('\'' :: (text.toList ++ ['\''])) = "'" ++ text ++ "'" := by
    rw [← String.toList_inj, String.toList_ofList, String.toList_append, String.toList_append]
    rfl
  have hread := parameter?_quoted hn (isBareDefault_literal text).1
  have hcut := parametersFrom_cut hpiece (c := '}') (by rw [hstate]; rfl) []
  rw [hstate, parametersFrom_gap isGap_nil rfl, List.append_nil] at hcut
  change _ = (Piece.parameter? ⟨_, .named⟩).toList at hcut
  rw [hread, hdefault] at hcut
  simp only [List.append_assoc, List.cons_append, List.nil_append] at hcut
  exact hcut

/-- When the text is cut, each side of the cut has one of the quotes. -/
theorem not_mem_of_cut (ht : '\'' ∉ text.toList) {x y : List Char} {c : Char}
    (hsplit : text.toList = x ++ c :: y) (hx : Quiet (.within 0) x)
    (hc : ((Scan.within 0).run x).cuts c = true) :
    literalParameter name text ∉ parametersFrom (.fresh .named)
      (literalFront name.toList ++ (text.toList ++ ['\'', '}'])) := by
  obtain ⟨hfront, hrun⟩ := quiet_literalFront hn
  have hparts := ht
  rw [hsplit, List.mem_append, List.mem_cons, not_or, not_or] at hparts
  have hpiece : Quiet (.fresh .named) (literalFront name.toList ++ x) :=
    quiet_append hfront (by rw [hrun]; exact hx)
  have hcut : ((Scan.fresh .named).run (literalFront name.toList ++ x)).cuts c = true := by
    rw [run_append, hrun]
    exact hc
  have hone := count_literalFront hn hparts.1
  have hrest : (y ++ ['\'', '}']).count '\'' < 2 := by
    rw [List.count_append, List.count_eq_zero_of_not_mem hparts.2.2]
    decide
  rw [hsplit, List.append_assoc, List.cons_append, ← List.append_assoc,
    parametersFrom_cut hpiece hcut, ← parametersFrom_end hpiece, List.mem_append, not_or]
  exact ⟨not_mem_of_count ht (by omega) _, not_mem_of_count ht hrest _⟩

/-- When the text leaves a bracket open, the brace at the end belongs to the default. -/
theorem parametersFrom_ne_of_deep (hquiet : Quiet (.within 0) text.toList) {n : Nat}
    (hdeep : (Scan.within 0).run text.toList = .within (n + 1)) :
    parametersFrom (.fresh .named) (literalFront name.toList ++ (text.toList ++ ['\'', '}'])) ≠
      [literalParameter name text] := by
  intro h
  obtain ⟨hfront, hrun⟩ := quiet_literalFront hn
  have hcuts : ∀ c, (Scan.within (n + 1)).cuts c = false :=
    fun c => (cuts_within_iff (n + 1) c).2 fun h => absurd h (Nat.succ_ne_zero n)
  have hclosing : Quiet (.within (n + 1)) ['\'', '}'] := by
    refine ⟨hcuts '\'', ?_⟩
    rw [after_within (hcuts '\'')]
    exact ⟨hcuts '}', trivial⟩
  have hall : Quiet (.fresh .named) (literalFront name.toList ++ (text.toList ++ ['\'', '}'])) :=
    quiet_append hfront (by rw [hrun]; exact quiet_append hquiet (by rw [hdeep]; exact hclosing))
  have hread := parameter?_quoted hn (isBareDefault_literal text).2
  rw [parametersFrom_end hall] at h
  change (Piece.parameter? ⟨_, .named⟩).toList = _ at h
  rw [hread] at h
  have hdefault := congrArg Parameter.defaultValue (List.cons.inj h).1
  have hlength := congrArg (Option.map fun s => s.toList.length) hdefault
  simp [literalParameter] at hlength

/-- **The list is read right exactly when the text is unbroken.** -/
theorem parameters_literal_iff (ht : '\'' ∉ text.toList) :
    parameters ('{' :: (literalFront name.toList ++ (text.toList ++ ['\'', '}']))) =
      [literalParameter name text] ↔ Unbroken 0 text.toList := by
  have hopen : parameters ('{' :: (literalFront name.toList ++ (text.toList ++ ['\'', '}']))) =
      parametersFrom (.fresh .named) (literalFront name.toList ++ (text.toList ++ ['\'', '}'])) := by
    rw [parameters_eq]
    exact parametersFrom_opening isGap_nil rfl _
  rw [hopen]
  refine ⟨fun h => ?_, parametersFrom_of_unbroken hn⟩
  by_cases hbroken : Unbroken 0 text.toList
  · exact hbroken
  · rcases cut_of_not_unbroken hbroken with ⟨x, c, y, hsplit, hx, hc⟩ | ⟨hquiet, n, hdeep⟩
    · refine absurd ?_ (not_mem_of_cut hn ht hsplit hx hc)
      rw [h]
      exact List.mem_cons_self
    · exact absurd h (parametersFrom_ne_of_deep hn hquiet hdeep)

/-! ## The factory -/

/-- The search for the closing bracket finds the one behind the list, or one within the text. -/
theorem eq_or_count_of_beforeClosing? (ht : '\'' ∉ text.toList) {tail list : List Char}
    (hm : ')' ∉ tail) (h : beforeClosing? 0
      ('{' :: (literalFront name.toList ++ (text.toList ++ ['\'', '}'])) ++ ')' :: tail) = some list) :
    list = '{' :: (literalFront name.toList ++ (text.toList ++ ['\'', '}'])) ∨
      list.count '\'' < 2 := by
  obtain ⟨rest, hrest⟩ := beforeClosing?_eq_some h
  have hsplit : '{' :: (literalFront name.toList ++ (text.toList ++ ['\'', '}'])) ++ ')' :: tail =
      ('{' :: (literalFront name.toList ++ text.toList)) ++ ('\'' :: '}' :: ')' :: tail) := by
    simp only [List.append_assoc, List.cons_append, List.nil_append]
  rw [hsplit] at hrest
  -- the bracket that is found stands in the text, or it is one of the characters behind the text
  rcases List.append_eq_append_iff.1 hrest with ⟨k, hk, -⟩ | ⟨k, hk, hclose⟩
  · right
    have hsub : list.Sublist ('{' :: (literalFront name.toList ++ text.toList)) := by
      rw [hk]
      exact List.sublist_append_left list k
    have hle := hsub.count_le '\''
    rw [List.count_cons_of_ne (by decide), count_literalFront hn ht] at hle
    omega
  · left
    match k, hclose with
    | [], hclose => exact absurd (List.cons.inj hclose).1 (by decide)
    | [_], hclose => exact absurd (List.cons.inj (List.cons.inj hclose).2).1 (by decide)
    | [a, b], hclose =>
      obtain ⟨rfl, hbrace⟩ := List.cons.inj hclose
      obtain ⟨rfl, -⟩ := List.cons.inj hbrace
      rw [hk]
      simp only [List.append_assoc, List.cons_append]
    | _ :: _ :: _ :: k, hclose =>
      have htail := (List.cons.inj (List.cons.inj (List.cons.inj hclose).2).2).2
      refine absurd ?_ hm
      rw [htail]
      exact List.mem_append_right k List.mem_cons_self

/-- Round brackets of the list are those of the text. -/
theorem nested_literal_iff :
    Nested [Bracket.round] ('{' :: (literalFront name.toList ++ (text.toList ++ ['\'', '}']))) ↔
      Nested [Bracket.round] text.toList := by
  have hfront : Nested [Bracket.round] ('{' :: literalFront name.toList) :=
    nested_append (s := ['{']) (by decide) (nested_append (by decide)
      (nested_append (guarded_of_accepts hn).nested.round (by decide)))
  constructor
  · intro h
    rw [← List.cons_append, Nested, due?_append, hfront, Option.bind_some, due?_append] at h
    obtain ⟨due, hdue, hend⟩ := Option.bind_eq_some_iff.1 h
    obtain rfl : due = [] := Option.some.inj hend
    exact hdue
  · intro h
    exact nested_append hfront (nested_append h (by decide))

/-- **The parameters of the fragment are right exactly when** the round brackets of the text are
nested and the text is unbroken. -/
theorem parameters_beforeClosing?_iff (ht : '\'' ∉ text.toList) {tail : List Char}
    (hm : ')' ∉ tail) :
    ((beforeClosing? 0 ('{' :: (literalFront name.toList ++ (text.toList ++ ['\'', '}'])) ++
        ')' :: tail)).map parameters).getD [] = [literalParameter name text] ↔
      Nested [Bracket.round] text.toList ∧ Unbroken 0 text.toList := by
  rw [← parameters_literal_iff hn ht, ← nested_literal_iff hn]
  constructor
  · intro h
    cases hlist : beforeClosing? 0 ('{' :: (literalFront name.toList ++ (text.toList ++ ['\'', '}'])) ++
        ')' :: tail) with
    | none =>
      rw [hlist] at h
      cases h
    | some list =>
      rw [hlist] at h
      change parameters list = _ at h
      rcases eq_or_count_of_beforeClosing? hn ht hm hlist with rfl | hcount
      · exact ⟨nested_of_beforeClosing? hlist, h⟩
      · have hmem : literalParameter name text ∈ parametersFrom (.fresh .positional) list := by
          rw [← parameters_eq, h]
          exact List.mem_cons_self
        exact absurd hmem (not_mem_of_count ht hcount _)
  · rintro ⟨hnested, hread⟩
    rw [beforeClosing?_of_nested hnested]
    exact hread

end

end Source

/-! ## The union -/

section

variable {union label name typeName text : String}

/-- The source in front of the literal. -/
def literalOpening (union label name : String) : List Char :=
  ("class " ++ union ++ " \x7b factory " ++ union ++ "." ++ label ++ "(\x7bString " ++ name ++
    " = ").toList

/-- The rest of the statement behind the literal. -/
def literalClosing (typeName : String) : List Char := ("\x7d) = " ++ typeName).toList

/-- The only statement of the source. -/
def literalStatement (union label name typeName text : String) : List Char :=
  literalOpening union label name ++
    '\'' :: (text.toList ++ '\'' :: literalClosing typeName)

theorem toList_literalSource (union label name typeName text : String) :
    (literalSource union label name typeName text).toList =
      literalStatement union label name typeName text ++ ';' :: " \x7d".toList := by
  unfold literalSource literalStatement literalOpening literalClosing
  simp only [String.toList_append, List.append_assoc, List.cons_append]
  rfl

/-- The statement is the header of the class and a factory. -/
theorem literalStatement_eq (union label name text : String) {typeName : String}
    (ht : caseName.accepts typeName.toList = true) :
    ∃ head redirection, HeadWritten union label head ∧ RedirectionWritten typeName redirection ∧
      ')' ∉ " ".toList ++ '=' :: (redirection ++ [';']) ∧
      literalStatement union label name typeName text =
        [] ++ ("class".toList ++ (" ".toList ++ (union.toList ++ (" ".toList ++ ['{'])))) ++
          " ".toList ++ (head ++ '(' :: ('{' :: (literalFront name.toList ++ (text.toList ++
            ['\'', '}'])) ++ ')' :: " ".toList ++ '=' :: redirection)) := by
  have hspace : IsSpace " ".toList := by decide
  refine ⟨_, _, @HeadWritten.mk union label " ".toList [] [] [] hspace isGap_nil isGap_nil isGap_nil,
    @RedirectionWritten.mk typeName [] " ".toList [] [] .absent hspace.1 .absent isGap_nil, ?_, ?_⟩
  · have hname : ')' ∉ typeName.toList :=
      fun hc => ne_of_next (next_of_accepts (identifier_of_caseName ht) hc) rfl rfl
    simp only [List.nil_append, List.append_nil, List.mem_append, List.mem_cons, hname, or_false]
    decide
  · unfold literalStatement literalOpening literalClosing literalFront
    simp only [String.toList_append, List.append_assoc, List.cons_append, List.nil_append,
      List.append_nil]
    rfl

/-- What no stage of the reading stops at. -/
def Inert (s : List Char) : Prop :=
  ∀ c ∈ s, (c ≠ ';' ∧ c ≠ '\n' ∧ c ≠ '\r') ∧ c ≠ '\'' ∧ c ≠ '"' ∧ c ≠ '/'

instance (s : List Char) : Decidable (Inert s) := inferInstanceAs (Decidable (∀ c ∈ s, _))

theorem inert_append {s t : String} (hs : Inert s.toList) (ht : Inert t.toList) :
    Inert (s ++ t).toList := by
  rw [String.toList_append]
  exact List.forall_mem_append.2 ⟨hs, ht⟩

theorem inert_of_accepts {s : List Char} (h : identifier.accepts s = true) : Inert s :=
  fun _ hc => ⟨⟨ne_of_next (next_of_accepts h hc) rfl, ne_of_next (next_of_accepts h hc) rfl,
    ne_of_next (next_of_accepts h hc) rfl⟩, ne_of_next (next_of_accepts h hc) rfl,
    ne_of_next (next_of_accepts h hc) rfl, ne_of_next (next_of_accepts h hc) rfl⟩

variable (hu : unionName.accepts union.toList = true) (hl : identifier.accepts label.toList = true)
  (hn : identifier.accepts name.toList = true) (ht : caseName.accepts typeName.toList = true)

include hu hl hn in
theorem inert_literalOpening : Inert (literalOpening union label name) := by
  have hunion := inert_of_accepts (identifier_of_unionName hu)
  exact inert_append (inert_append (inert_append (inert_append (inert_append (inert_append
    (inert_append (inert_append (by decide) hunion) (by decide)) hunion) (by decide))
    (inert_of_accepts hl)) (by decide)) (inert_of_accepts hn)) (by decide)

include ht in
theorem inert_literalClosing : Inert (literalClosing typeName) :=
  inert_append (by decide) (inert_of_accepts (identifier_of_caseName ht))

include hu hl hn ht

/-- No stage takes anything from the source before it is cut into statements. -/
theorem stripComments_literalSource (hc : IsLiteralText text.toList) :
    stripComments (literalSource union label name typeName text).toList =
      (literalSource union label name typeName text).toList := by
  have hback : ∀ c ∈ literalClosing typeName ++ ';' :: " \x7d".toList,
      c ≠ '\'' ∧ c ≠ '"' ∧ c ≠ '/' :=
    List.forall_mem_append.2 ⟨fun c hc => (inert_literalClosing ht c hc).2, by decide⟩
  have hnil : stripComments [] = [] := by
    rw [stripComments, lexemes]
    rfl
  have hrest := stripComments_append hback []
  rw [hnil, List.append_nil] at hrest
  have hliteral := stripComments_literal
    (fun c hm => ⟨(hc c hm).1, (hc c hm).2.2.1, (hc c hm).2.2.2.1⟩)
    (literalClosing typeName ++ ';' :: " \x7d".toList)
  rw [hrest] at hliteral
  rw [toList_literalSource]
  unfold literalStatement
  simp only [List.append_assoc, List.cons_append]
  rw [stripComments_append fun c hc => (inert_literalOpening hu hl hn c hc).2, hliteral]

omit hl hn in
/-- The header of the source names the union. -/
theorem findUnionName?_literalSource :
    findUnionName? none (literalSource union label name typeName text).toList =
      some union.toList := by
  obtain ⟨head, redirection, -, -, -, hstatement⟩ := literalStatement_eq union label name text ht
  have hspace : IsSpace " ".toList := by decide
  rw [toList_literalSource, hstatement]
  simp only [List.append_assoc, List.cons_append]
  exact findUnionName?_class hu isGap_nil hspace hspace.1 _

/-- Without a semicolon in the literal the statement is closed only where it ends. -/
theorem mem_literalStatement (hc : IsLiteralText text.toList) (hs : ';' ∉ text.toList) :
    ∀ c ∈ literalStatement union label name typeName text, c ≠ ';' ∧ c ≠ '\n' ∧ c ≠ '\r' := by
  unfold literalStatement
  refine List.forall_mem_append.2 ⟨fun c hm => (inert_literalOpening hu hl hn c hm).1,
    List.forall_mem_cons.2 ⟨by decide, List.forall_mem_append.2 ⟨fun c hm => ?_,
      List.forall_mem_cons.2 ⟨by decide, fun c hm => (inert_literalClosing ht c hm).1⟩⟩⟩⟩
  exact ⟨fun h => hs (h ▸ hm), (hc c hm).2.2.2⟩

/-- The statement is read as a variant, with the parameters in front of the closing bracket. -/
theorem statementVariant?_literalStatement (hc : IsLiteralText text.toList)
    (hs : ';' ∉ text.toList) : ∃ tail, ')' ∉ tail ∧
      statementVariant? (literalStatement union label name typeName text) = some ⟨typeName, label,
        ((beforeClosing? 0 ('{' :: (literalFront name.toList ++ (text.toList ++ ['\'', '}'])) ++
          ')' :: tail)).map parameters).getD []⟩ := by
  obtain ⟨head, redirection, hh, hr, hm, hstatement⟩ := literalStatement_eq union label name text ht
  have hspace : IsSpace " ".toList := by decide
  have hone : oneLine (literalStatement union label name typeName text) =
      literalStatement union label name typeName text :=
    oneLine_eq_self fun c hm => (mem_literalStatement hu hl hn ht hc hs c hm).2
  have hopening := (opening_header hu isGap_nil hspace hspace.1).gap hspace.1
  have hfragment := fragment?_headWritten hopening hh ('(' :: ('{' :: (literalFront name.toList ++
    (text.toList ++ ['\'', '}'])) ++ ')' :: " ".toList ++ '=' :: redirection))
  have hvariant := variant?_ends (identifier_of_unionName hu) hl ht hh hr ('{' ::
    (literalFront name.toList ++ (text.toList ++ ['\'', '}'])) ++ ')' :: " ".toList)
  refine ⟨_, hm, ?_⟩
  rw [statementVariant?, hone, hstatement, hfragment, Option.bind_some, hvariant, List.append_assoc]
  rfl

/-- The source has no variant but that of its statement. -/
theorem variants_literalSource (hc : IsLiteralText text.toList) (hs : ';' ∉ text.toList) :
    variants (literalSource union label name typeName text).toList =
      (statementVariant? (literalStatement union label name typeName text)).toList := by
  have hclosed : ';' ∉ literalStatement union label name typeName text :=
    fun h => (mem_literalStatement hu hl hn ht hc hs _ h).1 rfl
  have hopen : ';' ∉ " \x7d".toList := by decide
  rw [variants_eq, variantsBehind, List.nil_append, toList_literalSource, statements_closed hclosed,
    statements_open hopen, List.filterMap_cons]
  cases statementVariant? (literalStatement union label name typeName text) <;> rfl

/-- When the literal holds no semicolon, the variant is right if its parameters are. -/
theorem variants_literalSource_iff (hc : IsLiteralText text.toList) (hs : ';' ∉ text.toList) :
    variants (literalSource union label name typeName text).toList =
        [⟨typeName, label, [literalParameter name text]⟩] ↔
      Nested [Bracket.round] text.toList ∧ Unbroken 0 text.toList := by
  have hquote : '\'' ∉ text.toList := fun h => (hc _ h).1 rfl
  obtain ⟨tail, hm, hvariant⟩ := statementVariant?_literalStatement hu hl hn ht hc hs
  rw [variants_literalSource hu hl hn ht hc hs, hvariant,
    ← parameters_beforeClosing?_iff hn hquote hm]
  constructor
  · intro h
    exact congrArg Variant.parameters (List.cons.inj h).1
  · intro h
    rw [h]
    rfl

/-- The union of the source comes down to its variants. -/
theorem ofSource_literalSource_iff (hr : label ≠ reservedLabel) (hc : IsLiteralText text.toList) :
    Declaration.ofSource (literalSource union label name typeName text) =
        .ok (literalDeclaration union label name typeName text) ↔
      variants (literalSource union label name typeName text).toList =
        [⟨typeName, label, [literalParameter name text]⟩] := by
  rw [Declaration.ofSource, stripComments_literalSource hu hl hn ht hc, union?,
    findUnionName?_literalSource hu ht, Option.map_some, String.ofList_toList]
  generalize variants (literalSource union label name typeName text).toList = vs
  unfold literalDeclaration
  constructor
  · intro h
    cases hcheck : Declaration.check ⟨union, vs⟩ with
    | error f =>
      simp only [hcheck] at h
      cases h
    | ok _ =>
      simp only [hcheck] at h
      exact (Declaration.mk.inj (Except.ok.inj h)).2
  · rintro rfl
    have hoffence : offence? [] ⟨typeName, label, [literalParameter name text]⟩ = none :=
      offence?_eq_none_iff.2 ⟨hr, List.not_mem_nil, List.not_mem_nil,
        List.nodup_cons.2 ⟨List.not_mem_nil, List.nodup_nil⟩⟩
    have hcheck : Declaration.check ⟨union, [⟨typeName, label, [literalParameter name text]⟩]⟩ =
        .ok () := by
      rw [check_eq_ok_iff, Declaration.offence?, firstOffence?, hoffence]
      rfl
    simp only [hcheck]
    rfl

/-- **The default survives exactly when** the literal holds no semicolon, its round brackets are
nested and it is unbroken. -/
theorem ofSource_literal_iff (hr : label ≠ reservedLabel) (hc : IsLiteralText text.toList) :
    Declaration.ofSource (literalSource union label name typeName text) =
        .ok (literalDeclaration union label name typeName text) ↔
      ';' ∉ text.toList ∧ Nested [Bracket.round] text.toList ∧ Unbroken 0 text.toList := by
  rw [ofSource_literalSource_iff hu hl hn ht hr hc]
  by_cases hs : ';' ∈ text.toList
  · refine iff_of_false (fun h => ?_) fun h => h.1 hs
    have hvariant : ⟨typeName, label, [literalParameter name text]⟩ ∈
        variants (literalSource union label name typeName text).toList := by
      rw [h]
      exact List.mem_cons_self
    have hplain := plain_of_mem_variants hvariant List.mem_cons_self
      (.default (d := "'" ++ text ++ "'") rfl)
    rw [String.toList_append, String.toList_append] at hplain
    have hmem : ';' ∈ "'".toList ++ text.toList ++ "'".toList :=
      List.mem_append_left _ (List.mem_append_right _ hs)
    exact (hplain ';' hmem).2.2 rfl
  · rw [variants_literalSource_iff hu hl hn ht hc hs]
    exact (and_iff_right hs).symm

end

/-- Comment markers, an `=` and commas within brackets survive. -/
theorem ofSource_literal_iff_markers :
    Declaration.ofSource (literalSource "U" "l" "p" "C" "/* f(a, b) = <c, d> */ // e") =
      .ok (literalDeclaration "U" "l" "p" "C" "/* f(a, b) = <c, d> */ // e") :=
  (ofSource_literal_iff (by decide) (by decide) (by decide) (by decide) (by decide)
    (by decide)).2 (by decide)

/-- A semicolon ends the statement, so the factory is lost. -/
theorem ofSource_literal_semicolon :
    Declaration.ofSource (literalSource "U" "l" "p" "C" ";") = .ok ⟨"U", []⟩ ∧
      Declaration.ofSource (literalSource "U" "l" "p" "C" ";") ≠
        .ok (literalDeclaration "U" "l" "p" "C" ";") := by
  have hvariants : variants (literalSource "U" "l" "p" "C" ";").toList = [] := by
    rw [toList_literalSource]
    unfold literalStatement literalOpening literalClosing
    simp only [String.toList_append]
    decide +kernel
  have hread : Declaration.ofSource (literalSource "U" "l" "p" "C" ";") = .ok ⟨"U", []⟩ := by
    rw [Declaration.ofSource, stripComments_literalSource (by decide) (by decide) (by decide)
      (by decide) (by decide), union?, findUnionName?_literalSource (by decide) (by decide),
      hvariants, Option.map_some, String.ofList_toList]
    rfl
  refine ⟨hread, fun h => ?_⟩
  rw [hread] at h
  exact absurd (congrArg Declaration.variants (Except.ok.inj h)) (List.cons_ne_nil _ _).symm

end DartUnion
