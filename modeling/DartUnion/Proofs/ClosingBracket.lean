import DartUnion.Proofs.Brackets
import DartUnion.Proofs.ByteSlices

/-!
# The round bracket that closes another

A text is searched from an opening round bracket on for the bracket that closes it. Only the numbers
of the two round brackets count: the partner is the first closing one with which they are equal
(`EvensOut`), and what stands in between is nested (`IsPartner`).

`outer_parens` does the search by bytes. `closingAt?` is its loop, which walks along with a depth and
the number of the byte that it is at, and `between?` takes the slice between the brackets. How one is
taken off the depth is left open (`saturating`, `checked`): nothing is ever taken off zero, so both
find the same.

Results:
* `beforeClosing?_step`: what one character does to the search.
* `count_le_within`: within the text searched, never more brackets are closed than opened.
* `count_of_beforeClosing?`: the text found closes what it opens and what was open before.
* `finds_beforeClosing?`: the search finds the text up to the partner, and nothing only when there
  is none.
* `closingAt?_eq`: the walk by bytes is the search, whatever comes of taking one off zero.
* `between?_eq`: **the slice is the text up to the partner**, and there is none without a partner.
-/

namespace DartUnion.Source

open DartUnion.Text

/-! ## The partner of a bracket -/

/-- The text `t` in front of a closing bracket of `s`, with which as many round brackets are closed
as opened. One is open in front of `s`. -/
structure EvensOut (s t : List Char) : Prop where
  followed : t ++ [')'] <+: s
  even : ('(' :: (t ++ [')'])).count '(' = ('(' :: (t ++ [')'])).count ')'

/-- The text `t` reaches from an opening bracket to its partner, where `s` follows the bracket. -/
structure IsPartner (s t : List Char) : Prop where
  /-- A closing bracket follows that makes the numbers equal, -/
  evens : EvensOut s t
  /-- and it is the first one that does. -/
  first : ∀ u, EvensOut s u → t <+: u
  /-- At no place in between more are closed than opened, -/
  prefix_le : ∀ p, p <+: t → p.count ')' ≤ p.count '('
  /-- and at the end as many. -/
  count_eq : t.count '(' = t.count ')'

/-- What a search may find: the text up to the partner, and nothing when no bracket makes the
numbers equal. -/
def Finds (s : List Char) : Option (List Char) → Prop
  | some t => IsPartner s t
  | none => ∀ t, ¬EvensOut s t

/-! ## The search -/

/-- **One step of the search.** It stops at a closing bracket when none is open inside, and walks on
otherwise; a bracket that it passes moves the number of those open inside. -/
theorem beforeClosing?_step (inner : Nat) (c : Char) (s : List Char) :
    (c = ')' ∧ inner = 0 ∧ beforeClosing? inner (c :: s) = some []) ∨
      ∃ inner', beforeClosing? inner (c :: s) = (beforeClosing? inner' s).map (c :: ·) ∧
        [c].count ')' + inner' = [c].count '(' + inner := by
  rw [beforeClosing?_cons]
  by_cases ho : c = '('
  · rw [if_pos ho, ho]
    exact .inr ⟨inner + 1, rfl, by simp; omega⟩
  · rw [if_neg ho]
    by_cases hc : c = ')'
    · rw [if_pos hc]
      by_cases hn : inner = 0
      · exact .inl ⟨hc, hn, if_pos hn⟩
      · rw [if_neg hn, hc]
        exact .inr ⟨inner - 1, rfl, by simp; omega⟩
    · rw [if_neg hc]
      exact .inr ⟨inner, rfl, by simp [ho, hc]⟩

/-- **Never more are closed than opened** within the text that is searched, which is the text found
or all of it, when those count that were open before. -/
theorem count_le_within {inner : Nat} {s p : List Char}
    (h : p <+: (beforeClosing? inner s).getD s) : p.count ')' ≤ p.count '(' + inner := by
  induction s generalizing inner p with
  | nil =>
    obtain rfl := List.prefix_nil.1 h
    exact Nat.zero_le _
  | cons c s ih =>
    rcases beforeClosing?_step inner c s with ⟨-, -, hstop⟩ | ⟨inner', hstep, hcount⟩
    · rw [hstop, Option.getD_some, List.prefix_nil] at h
      rw [h]
      exact Nat.zero_le _
    · have hsearched : ((beforeClosing? inner' s).map (c :: ·)).getD (c :: s) =
          c :: (beforeClosing? inner' s).getD s := by
        cases beforeClosing? inner' s <;> rfl
      rw [hstep, hsearched, List.prefix_cons_iff] at h
      obtain rfl | ⟨q, rfl, hq⟩ := h
      · exact Nat.zero_le _
      · have := ih hq
        rw [← List.singleton_append, List.count_append, List.count_append]
        omega

/-- **The text found closes what it opens** and what was open before. -/
theorem count_of_beforeClosing? {inner : Nat} {s t : List Char}
    (h : beforeClosing? inner s = some t) : t.count ')' = t.count '(' + inner := by
  induction s generalizing inner t with
  | nil => cases h
  | cons c s ih =>
    rcases beforeClosing?_step inner c s with ⟨-, hn, hstop⟩ | ⟨inner', hstep, hcount⟩
    · obtain rfl := Option.some.inj (hstop.symm.trans h)
      rw [hn]
      rfl
    · obtain ⟨u, hu, rfl⟩ := Option.map_eq_some_iff.1 (hstep.symm.trans h)
      have := ih hu
      rw [← List.singleton_append, List.count_append, List.count_append]
      omega

/-- The numbers are equal behind a bracket when they are equal in front of it, the opening bracket
left out. -/
theorem evensOut_iff {s t : List Char} :
    EvensOut s t ↔ t ++ [')'] <+: s ∧ t.count '(' = t.count ')' := by
  have hopen : ('(' :: (t ++ [')'])).count '(' = t.count '(' + 1 := by simp
  have hclose : ('(' :: (t ++ [')'])).count ')' = t.count ')' + 1 := by simp
  constructor
  · rintro ⟨hf, he⟩
    rw [hopen, hclose] at he
    exact ⟨hf, Nat.succ.inj he⟩
  · rintro ⟨hf, he⟩
    exact ⟨hf, by rw [hopen, hclose, he]⟩

/-- The numbers become equal only behind the text that is searched: up to there never more are
closed than opened. -/
theorem not_prefix_of_evensOut {s u : List Char} (h : EvensOut s u) :
    ¬u ++ [')'] <+: (beforeClosing? 0 s).getD s := by
  intro hp
  have hle := count_le_within hp
  have heven := (evensOut_iff.1 h).2
  rw [List.count_append, List.count_append] at hle
  simp at hle
  omega

/-- **The search finds the partner**, and nothing when there is none. -/
theorem finds_beforeClosing? (s : List Char) : Finds s (beforeClosing? 0 s) := by
  cases h : beforeClosing? 0 s with
  | none =>
    intro t ht
    refine not_prefix_of_evensOut ht ?_
    rw [h]
    exact ht.followed
  | some t =>
    obtain ⟨rest, hs⟩ := beforeClosing?_eq_some h
    have hfollowed : t ++ [')'] <+: s := ⟨rest, by rw [← hs]; simp⟩
    have hcount : t.count '(' = t.count ')' := (count_of_beforeClosing? h).symm
    refine ⟨evensOut_iff.2 ⟨hfollowed, hcount⟩, fun u hu => ?_, fun p hp => ?_, hcount⟩
    · -- both are in front of a bracket of `s`, and that of `u` is not within `t`
      have hnot := not_prefix_of_evensOut hu
      rw [h, Option.getD_some] at hnot
      have ht : t <+: s := (List.prefix_append t [')']).trans hfollowed
      rcases List.prefix_or_prefix_of_prefix ht hu.followed with htu | hut
      · rcases List.prefix_concat_iff.1 htu with he | hp
        · exact absurd (he ▸ List.prefix_rfl) hnot
        · exact hp
      · exact absurd hut hnot
    · exact @count_le_within 0 s p (by rwa [h])

/-! ## The search by bytes -/

/-- One less, and zero stays. -/
def saturating (d : Nat) : Option Nat := some (d - 1)

/-- One less, and nothing is less than zero. -/
def checked : Nat → Option Nat
  | 0 => none
  | d + 1 => some d

/-- The number of the byte at which the open brackets are closed, if they are. The walk is at byte
`i` with `depth` brackets open, and `less` takes one off; when it cannot, the walk fails. -/
def closingAt? (less : Nat → Option Nat) (depth i : Nat) : List Char → Option (Option Nat)
  | [] => some none
  | c :: s =>
    if c = '(' then closingAt? less (depth + 1) (i + c.utf8Size) s
    else if c = ')' then do
      let depth ← less depth
      if depth = 0 then return some i else closingAt? less depth (i + c.utf8Size) s
    else closingAt? less depth (i + c.utf8Size) s

/-- The text between the bracket at byte `opening` and its partner, if it has one. -/
def between? (less : Nat → Option Nat) (text : String) (opening : Nat) :
    Option (Option String) := do
  let behind ← byteSlice? text opening text.utf8ByteSize
  match ← closingAt? less 0 0 behind.toList with
  | some i => return some (← byteSlice? text (opening + 1) (opening + i))
  | none => return none

/-- **The walk by bytes is the search.** Inside a bracket the depth is never zero, so nothing is
taken off zero. -/
theorem closingAt?_eq {less : Nat → Option Nat} (hless : ∀ d, less (d + 1) = some d)
    (inner i : Nat) (s : List Char) :
    closingAt? less (inner + 1) i s =
      some ((beforeClosing? inner s).map fun t => i + (String.ofList t).utf8ByteSize) := by
  induction s generalizing inner i with
  | nil => rfl
  | cons c s ih =>
    have hsize : ∀ o : Option (List Char),
        (o.map (c :: ·)).map (fun t => i + (String.ofList t).utf8ByteSize) =
          o.map fun t => i + c.utf8Size + (String.ofList t).utf8ByteSize := by
      intro o
      rw [Option.map_map]
      congr 1
      funext t
      simp [String.ofList_cons, Nat.add_assoc]
    rw [closingAt?, beforeClosing?_cons]
    by_cases ho : c = '('
    · rw [if_pos ho, if_pos ho, ih, hsize]
    · rw [if_neg ho, if_neg ho]
      by_cases hc : c = ')'
      · rw [if_pos hc, if_pos hc, hless, Option.bind_eq_bind, Option.bind_some]
        cases inner with
        | zero => rfl
        | succ inner =>
          rw [if_neg (Nat.succ_ne_zero inner), if_neg (Nat.succ_ne_zero inner), ih,
            Nat.add_sub_cancel, hsize]
      · rw [if_neg hc, if_neg hc, ih, hsize]

theorem between?_of_less {less : Nat → Option Nat} (hless : ∀ d, less (d + 1) = some d)
    (before behind : String) :
    between? less (before ++ "(" ++ behind) before.utf8ByteSize =
      some ((beforeClosing? 0 behind.toList).map String.ofList) := by
  have hopen : closingAt? less 0 0 ("(" ++ behind).toList = closingAt? less 1 1 behind.toList := by
    rw [String.toList_append]
    rfl
  have htail := byteSlice?_append_end before ("(" ++ behind)
  rw [← String.append_assoc] at htail
  simp only [between?, htail, hopen, closingAt?_eq hless, Option.bind_eq_bind, Option.bind_some]
  cases h : beforeClosing? 0 behind.toList with
  | none => rfl
  | some t =>
    obtain ⟨rest, hs⟩ := beforeClosing?_eq_some h
    have hbehind : behind = String.ofList t ++ String.ofList (')' :: rest) := by
      rw [← String.ofList_append, hs, String.ofList_toList]
    have hopening : (before ++ "(").utf8ByteSize = before.utf8ByteSize + 1 :=
      utf8ByteSize_append_singleton before '('
    have hslice := byteSlice?_append (before ++ "(") (String.ofList t) (String.ofList (')' :: rest))
    rw [String.append_assoc, ← hbehind, String.utf8ByteSize_append (s := before ++ "("), hopening,
      Nat.add_assoc] at hslice
    simp only [Option.map_some, hslice, Option.bind_some]
    rfl

/-- **The slice between a round bracket and its partner** is the text up to the first closing
bracket with which the numbers are equal; there is none without such a bracket. Nothing is ever
taken off a depth of zero. -/
theorem between?_eq (before behind : String) :
    Finds behind.toList (beforeClosing? 0 behind.toList) ∧
      between? saturating (before ++ "(" ++ behind) before.utf8ByteSize =
        some ((beforeClosing? 0 behind.toList).map String.ofList) ∧
      between? checked (before ++ "(" ++ behind) before.utf8ByteSize =
        some ((beforeClosing? 0 behind.toList).map String.ofList) :=
  ⟨finds_beforeClosing? behind.toList, between?_of_less (fun _ => rfl) before behind,
    between?_of_less (fun _ => rfl) before behind⟩

end DartUnion.Source
