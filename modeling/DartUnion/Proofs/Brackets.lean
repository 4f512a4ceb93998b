import DartUnion.Source.Factory

/-!
# Properly nested brackets

A text is `Nested` for some kinds of brackets when every bracket that opens is closed by its own
partner and in order. The scans of the library are coarser than that: `depthAfter` counts all four
kinds alike and stops at zero, `beforeClosing?` only counts round brackets. On nested text both are
exact.

* A scan remembers the closing brackets that are still due, innermost first: `dueAfter?` is one
  character, `due?` a text.
* `Held` text is nested and has every comma inside a pair; it is `Guarded` when all four kinds count.

Results:
* `depthAfter_of_dueAfter?`: the depth is the number of brackets due.
* `held_bracketed`: text that is nested between brackets is held, whatever commas stand in it.
* `due?_round`: leaving the other kinds out of sight keeps round brackets nested.
* `beforeClosing?_append`: the search for the closing bracket walks over text that closes what it
  opens, and `nested_of_beforeClosing?`: whatever it stops at is nested.
-/

namespace DartUnion.Source

/-- A kind of brackets. -/
structure Bracket where
  opening : Char
  closing : Char
  deriving Repr, DecidableEq

namespace Bracket

/-- Round brackets. -/
def round : Bracket := ⟨'(', ')'⟩

/-- The four kinds that nest. -/
def all : List Bracket := [round, ⟨'<', '>'⟩, ⟨'[', ']'⟩, ⟨'{', '}'⟩]

/-- The kinds that stand for nothing else. An angle bracket may also be the head of an arrow. -/
def unambiguous : List Bracket := [round, ⟨'[', ']'⟩, ⟨'{', '}'⟩]

/-- The ways to count brackets: with the angle brackets and without them. -/
def readings : List (List Bracket) := [all, unambiguous]

end Bracket

/-- The closing brackets due behind `c` when `due` are due in front of it. There are none when `c`
closes what was not opened last. -/
def dueAfter? (kinds : List Bracket) (due : List Char) (c : Char) : Option (List Char) :=
  match kinds.find? (·.opening == c) with
  | some b => some (b.closing :: due)
  | none =>
    if kinds.any (·.closing == c) then
      if due.head? = some c then some due.tail else none
    else some due

/-- The closing brackets due behind a text. -/
def due? (kinds : List Bracket) (due : List Char) (s : List Char) : Option (List Char) :=
  s.foldlM (dueAfter? kinds) due

/-- Every bracket of these kinds is closed, by its partner and in order. -/
def Nested (kinds : List Bracket) (s : List Char) : Prop := due? kinds [] s = some []

instance (kinds : List Bracket) (s : List Char) : Decidable (Nested kinds s) :=
  inferInstanceAs (Decidable (_ = _))

/-- The closing brackets due behind `c`, where a comma may only stand inside a pair. -/
def heldDueAfter? (kinds : List Bracket) (due : List Char) (c : Char) : Option (List Char) :=
  if c = ',' ∧ due = [] then none else dueAfter? kinds due c

/-- Brackets of these kinds are nested and every comma stands inside a pair. -/
def Held (kinds : List Bracket) (s : List Char) : Prop :=
  s.foldlM (heldDueAfter? kinds) [] = some []

instance (kinds : List Bracket) (s : List Char) : Decidable (Held kinds s) :=
  inferInstanceAs (Decidable (_ = _))

/-- All four kinds of brackets are nested and every comma stands inside a pair. -/
def Guarded (s : List Char) : Prop := Held Bracket.all s

instance (s : List Char) : Decidable (Guarded s) := inferInstanceAs (Decidable (Held Bracket.all s))

/-- The character is none of the brackets. -/
def Neutral (c : Char) : Prop := isOpening c = false ∧ isClosing c = false

/-- No bracket of these kinds. -/
def Bracketless (kinds : List Bracket) (s : List Char) : Prop :=
  ∀ c ∈ s, ∀ b ∈ kinds, c ≠ b.opening ∧ c ≠ b.closing

instance (kinds : List Bracket) (s : List Char) : Decidable (Bracketless kinds s) :=
  List.decidableBAll (fun c => ∀ b ∈ kinds, c ≠ b.opening ∧ c ≠ b.closing) s

/-! ## One character -/

theorem dueAfter?_of_ne {kinds : List Bracket} {c : Char}
    (h : ∀ b ∈ kinds, c ≠ b.opening ∧ c ≠ b.closing) (due : List Char) :
    dueAfter? kinds due c = some due := by
  have hopening : kinds.find? (·.opening == c) = none :=
    List.find?_eq_none.2 fun b hb => by simp [(h b hb).1.symm]
  have hclosing : kinds.any (·.closing == c) = false :=
    List.any_eq_false.2 fun b hb => by simp [(h b hb).2.symm]
  rw [dueAfter?, hopening, hclosing, if_neg Bool.false_ne_true]

theorem isOpening_eq_false_iff {c : Char} :
    isOpening c = false ↔ c ≠ '(' ∧ c ≠ '<' ∧ c ≠ '[' ∧ c ≠ '{' := by
  simp only [isOpening, Bool.or_eq_false_iff, beq_eq_false_iff_ne, and_assoc]

theorem dueAfter?_all (due : List Char) (c : Char) :
    dueAfter? Bracket.all due c =
      if c = '(' then some (')' :: due) else if c = '<' then some ('>' :: due)
      else if c = '[' then some (']' :: due) else if c = '{' then some ('}' :: due)
      else if isClosing c then if due.head? = some c then some due.tail else none
      else some due := by
  by_cases h₁ : c = '('
  · rw [h₁]
    rfl
  · by_cases h₂ : c = '<'
    · rw [h₂]
      rfl
    · by_cases h₃ : c = '['
      · rw [h₃]
        rfl
      · by_cases h₄ : c = '{'
        · rw [h₄]
          rfl
        · have hnone : Bracket.all.find? (·.opening == c) = none := by
            simp [Bracket.all, Bracket.round, Ne.symm h₁, Ne.symm h₂, Ne.symm h₃, Ne.symm h₄]
          have hclosing : Bracket.all.any (·.closing == c) = isClosing c := by
            simp [Bracket.all, Bracket.round, isClosing, @BEq.comm _ _ _ c, Bool.or_assoc]
          rw [dueAfter?, hnone, hclosing, if_neg h₁, if_neg h₂, if_neg h₃, if_neg h₄]

theorem dueAfter?_round (due : List Char) (c : Char) :
    dueAfter? [Bracket.round] due c =
      if c = '(' then some (')' :: due)
      else if c = ')' then if due.head? = some ')' then some due.tail else none
      else some due := by
  by_cases ho : c = '('
  · rw [ho]
    rfl
  · by_cases hc : c = ')'
    · rw [hc]
      rfl
    · rw [if_neg ho, if_neg hc]
      simp [dueAfter?, Bracket.round, Ne.symm ho, Ne.symm hc]

/-- A neutral character is no bracket of any kind. -/
theorem ne_of_neutral {c : Char} (h : Neutral c) :
    ∀ b ∈ Bracket.all, c ≠ b.opening ∧ c ≠ b.closing := by
  intro b hb
  have hopening : isOpening b.opening = true := by
    revert b
    decide
  have hclosing : isClosing b.closing = true := by
    revert b
    decide
  constructor
  · rintro rfl
    exact Bool.false_ne_true (h.1.symm.trans hopening)
  · rintro rfl
    exact Bool.false_ne_true (h.2.symm.trans hclosing)

theorem dueAfter?_of_neutral {c : Char} (h : Neutral c) (due : List Char) :
    dueAfter? Bracket.all due c = some due :=
  dueAfter?_of_ne (ne_of_neutral h) due

/-- What a character can do: open a bracket, close the one opened last, or nothing. -/
theorem dueAfter?_eq_some {due due' : List Char} {c : Char}
    (h : dueAfter? Bracket.all due c = some due') :
    (∃ d, isOpening c = true ∧ due' = d :: due ∧ (c = '(' ↔ d = ')')) ∨
      (isOpening c = false ∧ isClosing c = true ∧ due = c :: due') ∨
      (isOpening c = false ∧ isClosing c = false ∧ due' = due) := by
  rw [dueAfter?_all] at h
  by_cases ho : isOpening c = true
  · left
    simp only [isOpening, Bool.or_eq_true, beq_iff_eq] at ho
    rcases ho with ((rfl | rfl) | rfl) | rfl
    · exact ⟨')', rfl, (Option.some.inj h).symm, by decide⟩
    · exact ⟨'>', rfl, (Option.some.inj h).symm, by decide⟩
    · exact ⟨']', rfl, (Option.some.inj h).symm, by decide⟩
    · exact ⟨'}', rfl, (Option.some.inj h).symm, by decide⟩
  · right
    rw [Bool.not_eq_true] at ho
    obtain ⟨h₁, h₂, h₃, h₄⟩ := isOpening_eq_false_iff.1 ho
    rw [if_neg h₁, if_neg h₂, if_neg h₃, if_neg h₄] at h
    by_cases hc : isClosing c = true
    · rw [if_pos hc] at h
      cases due with
      | nil => cases h
      | cons d due =>
        split at h
        · next hd =>
          rw [← Option.some.inj hd, ← Option.some.inj h]
          rw [← Option.some.inj hd] at ho hc
          exact .inl ⟨ho, hc, rfl⟩
        · cases h
    · rw [if_neg hc] at h
      exact .inr ⟨ho, Bool.eq_false_iff.2 hc, (Option.some.inj h).symm⟩

/-- **The depth is the number of brackets due.** -/
theorem depthAfter_of_dueAfter? {due due' : List Char} {c : Char}
    (h : dueAfter? Bracket.all due c = some due') : depthAfter due.length c = due'.length := by
  unfold depthAfter
  rcases dueAfter?_eq_some h with ⟨d, ho, rfl, -⟩ | ⟨ho, hc, rfl⟩ | ⟨ho, hc, rfl⟩
  · rw [if_pos ho]
    rfl
  · rw [ho, if_neg Bool.false_ne_true, if_pos hc]
    rfl
  · rw [ho, hc, if_neg Bool.false_ne_true, if_neg Bool.false_ne_true]

/-- What closes is due. -/
theorem due_ne_nil_of_isClosing {due due' : List Char} {c : Char} (hc : isClosing c = true)
    (h : dueAfter? Bracket.all due c = some due') : due ≠ [] := by
  rintro rfl
  simp only [isClosing, Bool.or_eq_true, beq_iff_eq] at hc
  rw [dueAfter?_all] at h
  rcases hc with ((rfl | rfl) | rfl) | rfl <;> simp [isClosing] at h

/-- A character does to the round brackets due what it does to all of them. -/
theorem dueAfter?_round_filter {due due' : List Char} {c : Char}
    (h : dueAfter? Bracket.all due c = some due') :
    dueAfter? [Bracket.round] (due.filter (· == ')')) c = some (due'.filter (· == ')')) := by
  rw [dueAfter?_round]
  rcases dueAfter?_eq_some h with ⟨d, ho, rfl, hd⟩ | ⟨ho, -, rfl⟩ | ⟨ho, hc, rfl⟩
  · by_cases hround : c = '('
    · rw [if_pos hround, hd.1 hround]
      rfl
    · have hclose : c ≠ ')' := by
        rintro rfl
        cases ho
      have hother : d ≠ ')' := fun he => hround (hd.2 he)
      rw [if_neg hround, if_neg hclose, List.filter_cons_of_neg (by simp [hother])]
  · rw [if_neg (isOpening_eq_false_iff.1 ho).1]
    by_cases hround : c = ')'
    · rw [if_pos hround, hround]
      rfl
    · rw [if_neg hround, List.filter_cons_of_neg (by simp [hround])]
  · have hclose : c ≠ ')' := by
      rintro rfl
      cases hc
    rw [if_neg (isOpening_eq_false_iff.1 ho).1, if_neg hclose]

/-! ## Texts -/

theorem due?_cons (kinds : List Bracket) (due : List Char) (c : Char) (s : List Char) :
    due? kinds due (c :: s) = (dueAfter? kinds due c).bind fun due => due? kinds due s :=
  List.foldlM_cons

theorem due?_append (kinds : List Bracket) (due : List Char) (s t : List Char) :
    due? kinds due (s ++ t) = (due? kinds due s).bind fun due => due? kinds due t :=
  List.foldlM_append

/-- What is due below a scan does not matter to a text that it walks over. -/
theorem due?_append_right {kinds : List Bracket} {due due' : List Char} {s : List Char}
    (h : due? kinds due s = some due') (below : List Char) :
    due? kinds (due ++ below) s = some (due' ++ below) := by
  induction s generalizing due with
  | nil =>
    obtain rfl : due = due' := Option.some.inj h
    rfl
  | cons c s ih =>
    rw [due?_cons] at h ⊢
    obtain ⟨due₁, h₁, h₂⟩ := Option.bind_eq_some_iff.1 h
    have : dueAfter? kinds (due ++ below) c = some (due₁ ++ below) := by
      unfold dueAfter? at h₁ ⊢
      split at h₁
      · obtain rfl := Option.some.inj h₁
        rfl
      · split at h₁
        · cases due with
          | nil => simp at h₁
          | cons d due =>
            split at h₁
            · next hd =>
              obtain rfl := Option.some.inj h₁
              rw [if_pos (by assumption)]
              exact if_pos hd
            · cases h₁
        · obtain rfl := Option.some.inj h₁
          rw [if_neg (by assumption)]
    rw [this]
    exact ih h₂

/-- Nested text leaves due what was due before it. -/
theorem Nested.due? {kinds : List Bracket} {s : List Char} (h : Nested kinds s)
    (due : List Char) : due? kinds due s = some due :=
  due?_append_right h due

theorem nested_append {kinds : List Bracket} {s t : List Char} (hs : Nested kinds s)
    (ht : Nested kinds t) : Nested kinds (s ++ t) := by
  rw [Nested, due?_append, hs.due?]
  exact ht

/-- A text without brackets is nested. -/
theorem nested_of_bracketless {kinds : List Bracket} {s : List Char} (h : Bracketless kinds s) :
    Nested kinds s := by
  induction s with
  | nil => rfl
  | cons c s ih =>
    rw [Nested, due?_cons, dueAfter?_of_ne (h c List.mem_cons_self)]
    exact ih fun d hd => h d (List.mem_cons_of_mem c hd)

/-! ## Commas inside pairs -/

section

variable {kinds : List Bracket}

theorem dueAfter?_of_held {due due' : List Char} {c : Char}
    (h : heldDueAfter? kinds due c = some due') : dueAfter? kinds due c = some due' := by
  unfold heldDueAfter? at h
  split at h
  · cases h
  · exact h

/-- Held text is nested. -/
theorem due?_of_held {due due' : List Char} {s : List Char}
    (h : s.foldlM (heldDueAfter? kinds) due = some due') : due? kinds due s = some due' := by
  induction s generalizing due with
  | nil => exact h
  | cons c s ih =>
    rw [List.foldlM_cons] at h
    obtain ⟨due₁, h₁, h₂⟩ := Option.bind_eq_some_iff.1 h
    rw [due?_cons, dueAfter?_of_held h₁]
    exact ih h₂

theorem Held.nested {s : List Char} (h : Held kinds s) : Nested kinds s := due?_of_held h

theorem held_append {s t : List Char} (hs : Held kinds s) (ht : Held kinds t) :
    Held kinds (s ++ t) := by
  rw [Held, List.foldlM_append, hs]
  exact ht

/-- A text without brackets and commas is held. -/
theorem held_of_bracketless {s : List Char} (h : Bracketless kinds s) (hc : ',' ∉ s) :
    Held kinds s := by
  induction s with
  | nil => rfl
  | cons c s ih =>
    obtain ⟨hne, hs⟩ := not_or.1 (mt List.mem_cons.2 hc)
    rw [Held, List.foldlM_cons, heldDueAfter?, if_neg fun he => hne he.1.symm,
      dueAfter?_of_ne (h c List.mem_cons_self)]
    exact ih (fun d hd => h d (List.mem_cons_of_mem c hd)) hs

/-- Inside a pair commas may stand anywhere. -/
theorem held_within {below : List Char} (hb : below ≠ []) {due due' s : List Char}
    (h : due? kinds due s = some due') :
    s.foldlM (heldDueAfter? kinds) (due ++ below) = some (due' ++ below) := by
  induction s generalizing due with
  | nil =>
    obtain rfl : due = due' := Option.some.inj h
    rfl
  | cons c s ih =>
    have hone : ∀ d, due? kinds d [c] = dueAfter? kinds d c := fun d => by
      rw [due?_cons]
      exact Option.bind_fun_some (dueAfter? kinds d c)
    rw [due?_cons] at h
    obtain ⟨due₁, h₁, h₂⟩ := Option.bind_eq_some_iff.1 h
    have hwithin := due?_append_right ((hone due).trans h₁) below
    rw [hone] at hwithin
    rw [List.foldlM_cons, heldDueAfter?, if_neg fun he => hb (List.append_eq_nil_iff.1 he.2).2,
      hwithin]
    exact ih h₂

/-- Nested text between brackets that belong together is held, whatever commas stand in it. -/
theorem held_bracketed {b : Bracket} (ho : heldDueAfter? kinds [] b.opening = some [b.closing])
    (hc : heldDueAfter? kinds [b.closing] b.closing = some []) {s t : List Char}
    (hs : Nested kinds s) (ht : Held kinds t) : Held kinds (b.opening :: (s ++ b.closing :: t)) := by
  have hwithin := held_within (List.cons_ne_nil b.closing []) hs
  rw [List.nil_append] at hwithin
  rw [Held, List.foldlM_cons, ho, Option.bind_eq_bind, Option.bind_some, List.foldlM_append,
    hwithin, Option.bind_eq_bind, Option.bind_some, List.foldlM_cons, hc]
  exact ht

end

theorem Guarded.nested {s : List Char} (h : Guarded s) : Nested Bracket.all s := Held.nested h

theorem guarded_append {s t : List Char} (hs : Guarded s) (ht : Guarded t) : Guarded (s ++ t) :=
  held_append hs ht

/-- A text without brackets and commas is guarded. -/
theorem guarded_of_neutral {s : List Char} (h : ∀ c ∈ s, Neutral c ∧ c ≠ ',') : Guarded s :=
  held_of_bracketless (fun c hc => ne_of_neutral (h c hc).1) fun hc => (h _ hc).2 rfl

/-- The depth behind a text is the number of brackets due there. -/
theorem foldl_depthAfter {due due' : List Char} {s : List Char}
    (h : due? Bracket.all due s = some due') : s.foldl depthAfter due.length = due'.length := by
  induction s generalizing due with
  | nil => rw [Option.some.inj h]; rfl
  | cons c s ih =>
    rw [due?_cons] at h
    obtain ⟨due₁, h₁, h₂⟩ := Option.bind_eq_some_iff.1 h
    rw [List.foldl_cons, depthAfter_of_dueAfter? h₁]
    exact ih h₂

/-- Nested text does not start with a bracket that closes. -/
theorem isClosing_of_nested {c : Char} {s : List Char} (h : Nested Bracket.all (c :: s)) :
    isClosing c = false := by
  rw [Bool.eq_false_iff]
  intro hc
  rw [Nested, due?_cons] at h
  obtain ⟨due, h₁, -⟩ := Option.bind_eq_some_iff.1 h
  exact due_ne_nil_of_isClosing hc h₁ rfl

/-- Nested text between brackets of one kind is nested. -/
theorem nested_bracketed {b : Bracket} (hb : b ∈ Bracket.all) {s t : List Char}
    (hs : Nested Bracket.all s) (ht : Nested Bracket.all t) :
    Nested Bracket.all (b.opening :: (s ++ b.closing :: t)) := by
  have ho : dueAfter? Bracket.all [] b.opening = some [b.closing] := by
    revert b
    decide
  have hc : dueAfter? Bracket.all [b.closing] b.closing = some [] := by
    revert b
    decide
  rw [Nested, due?_cons, ho, Option.bind_some, due?_append, hs.due?, Option.bind_some, due?_cons, hc]
  exact ht

/-- Nested text between brackets of one kind is guarded, whatever commas stand in it. -/
theorem guarded_bracketed {b : Bracket} (hb : b ∈ Bracket.all) {s t : List Char}
    (hs : Nested Bracket.all s) (ht : Guarded t) :
    Guarded (b.opening :: (s ++ b.closing :: t)) := by
  have hpair : heldDueAfter? Bracket.all [] b.opening = some [b.closing] ∧
      heldDueAfter? Bracket.all [b.closing] b.closing = some [] := by
    revert b
    decide
  exact held_bracketed hpair.1 hpair.2 hs ht

/-! ## Round brackets -/

/-- **Leaving the other kinds out of sight** keeps the round brackets in order. -/
theorem due?_round {due due' : List Char} {s : List Char}
    (h : due? Bracket.all due s = some due') :
    due? [Bracket.round] (due.filter (· == ')')) s = some (due'.filter (· == ')')) := by
  induction s generalizing due with
  | nil =>
    obtain rfl : due = due' := Option.some.inj h
    rfl
  | cons c s ih =>
    rw [due?_cons] at h ⊢
    obtain ⟨due₁, h₁, h₂⟩ := Option.bind_eq_some_iff.1 h
    rw [dueAfter?_round_filter h₁]
    exact ih h₂

theorem Nested.round {s : List Char} (h : Nested Bracket.all s) : Nested [Bracket.round] s :=
  due?_round h

theorem beforeClosing?_cons (inner : Nat) (c : Char) (s : List Char) :
    beforeClosing? inner (c :: s) =
      if c = '(' then (beforeClosing? (inner + 1) s).map (c :: ·)
      else if c = ')' then
        if inner = 0 then some [] else (beforeClosing? (inner - 1) s).map (c :: ·)
      else (beforeClosing? inner s).map (c :: ·) := by
  cases inner <;> rfl

/-- **The search for the closing bracket walks over a text** and goes on with as many brackets open
as the text leaves due. -/
theorem beforeClosing?_append {due due' : List Char} {s : List Char}
    (h : due? [Bracket.round] due s = some due') (t : List Char) :
    beforeClosing? due.length (s ++ t) = (beforeClosing? due'.length t).map (s ++ ·) := by
  induction s generalizing due with
  | nil =>
    obtain rfl : due = due' := Option.some.inj h
    simp
  | cons c s ih =>
    rw [due?_cons] at h
    obtain ⟨due₁, h₁, h₂⟩ := Option.bind_eq_some_iff.1 h
    have ih := ih h₂
    rw [dueAfter?_round] at h₁
    rw [List.cons_append, beforeClosing?_cons]
    split at h₁
    · next hc =>
      obtain rfl := Option.some.inj h₁
      rw [List.length_cons] at ih
      rw [if_pos hc, ih, Option.map_map]
      rfl
    · next hc =>
      rw [if_neg hc]
      split at h₁
      · next hc' =>
        cases due with
        | nil => simp at h₁
        | cons d due =>
          have hdue : due = due₁ := by
            split at h₁
            · exact Option.some.inj h₁
            · cases h₁
          rw [← hdue] at ih
          rw [if_pos hc', List.length_cons, if_neg (Nat.succ_ne_zero _), Nat.add_sub_cancel, ih,
            Option.map_map]
          rfl
      · next hc' =>
        obtain rfl := Option.some.inj h₁
        rw [if_neg hc', ih, Option.map_map]
        rfl

/-- The text in front of its closing bracket is found whole when its own brackets are nested. -/
theorem beforeClosing?_of_nested {s : List Char} (h : Nested [Bracket.round] s) (t : List Char) :
    beforeClosing? 0 (s ++ ')' :: t) = some s := by
  have := beforeClosing?_append h (')' :: t)
  rw [List.length_nil] at this
  rw [this]
  simp [beforeClosing?]

/-- **What the search stops at is nested**, up to the brackets that were open before it. -/
theorem due?_of_beforeClosing? {inner : Nat} {s t : List Char}
    (h : beforeClosing? inner s = some t) :
    due? [Bracket.round] (List.replicate inner ')') t = some [] := by
  induction s generalizing inner t with
  | nil => simp [beforeClosing?] at h
  | cons c s ih =>
    rw [beforeClosing?_cons] at h
    split at h
    · next hc =>
      obtain ⟨u, hu, rfl⟩ := Option.map_eq_some_iff.1 h
      rw [due?_cons, dueAfter?_round, if_pos hc]
      exact ih hu
    · next hc =>
      split at h
      · next hc' =>
        cases inner with
        | zero =>
          obtain rfl := Option.some.inj h
          rfl
        | succ inner =>
          rw [if_neg (Nat.succ_ne_zero _)] at h
          obtain ⟨u, hu, rfl⟩ := Option.map_eq_some_iff.1 h
          rw [due?_cons, dueAfter?_round, if_neg hc, if_pos hc', List.replicate_succ,
            List.head?_cons, if_pos rfl]
          exact ih hu
      · next hc' =>
        obtain ⟨u, hu, rfl⟩ := Option.map_eq_some_iff.1 h
        rw [due?_cons, dueAfter?_round, if_neg hc, if_neg hc']
        exact ih hu

theorem nested_of_beforeClosing? {s t : List Char} (h : beforeClosing? 0 s = some t) :
    Nested [Bracket.round] t :=
  due?_of_beforeClosing? h

end DartUnion.Source
