import DartUnion.Proofs.JsonValues

/-!
# Readers that fail

A reader fails at a text when it gives a fault whatever stands behind the text. The path of the
fault says where it is, and only a step down into a field or an item makes the path longer. So a
number or a boolean in the place of a string is a fault at that place itself, and a list or a record
passes the fault of an item or a field on with one step more, once all that stands in front of it
was read.

* `Fails`: the reader fails at the text, with a fault at the end of the path.
* `IsNumberOrBool`: a number or a boolean of JSON text.

Results:
* `atRoot_number`: a number that cannot be read is a fault without any step.
* `fails_text`: **a number or a boolean is no string**, and the fault is at the node itself.
* `elements_fails`, `keyed_fails`: the loops of lists and records stop at the first that fails.
* `fails_list`, `fails_record`: **lists and records fail at an item or a field that fails**.
-/

namespace DartUnion.Json

variable {α β σ : Type}

/-- The reader fails at the text, whatever stands behind it, with a fault at the end of the path. -/
def Fails (r : Reader α) (s : List Char) (path : List Step) : Prop :=
  ∀ rest, ∃ f, r (s ++ rest) = .error f ∧ f.path = path

/-! ## Readers in a row -/

section

variable {r : Reader α} {s : List Char} {path : List Step}

theorem Fails.append (h : Fails r s path) (t : List Char) : Fails r (s ++ t) path := by
  intro rest
  rw [List.append_assoc]
  exact h (t ++ rest)

/-- What fails first fails. -/
theorem bind_of_error {f : α → Reader β} {e : Fault} (h : r s = .error e) :
    (r >>= f) s = .error e := by
  show (r s >>= fun p => f p.1 p.2) = .error e
  rw [h]
  rfl

theorem Fails.bind (h : Fails r s path) (f : α → Reader β) : Fails (r >>= f) s path := by
  intro rest
  obtain ⟨e, he, hpath⟩ := h rest
  exact ⟨e, bind_of_error he, hpath⟩

/-- A fault is seen from the node above with one step more. -/
theorem Fails.under (h : Fails r s path) (step : Step) :
    Fails (under step r) s (step :: path) := by
  intro rest
  obtain ⟨e, he, hpath⟩ := h rest
  refine ⟨e.under step, ?_, congrArg (step :: ·) hpath⟩
  rw [Json.under, he]
  rfl

theorem Fails.advance (h : Fails r s path) (c : Char) :
    Fails (advance >>= fun _ => r) (c :: s) path := by
  intro rest
  rw [List.cons_append, bind_of_ok (advance_cons c _)]
  exact h rest

theorem Fails.token {f : Option Char → Reader α} {c : Char} (h : Fails (f (some c)) (c :: s) path)
    (hc : isGap c = false) {gap : List Char} (hg : IsGap gap) :
    Fails (nextToken >>= f) (gap ++ c :: s) path := by
  intro rest
  rw [List.append_assoc, List.cons_append, bind_of_ok (nextToken_gap hg hc _)]
  exact h rest

theorem Fails.get {f : List Char → Reader α}
    (h : ∀ all : List Char, s.length ≤ all.length → Fails (f all) s path) :
    Fails (get >>= f) s path := by
  intro rest
  have hlength : s.length ≤ (s ++ rest).length := by
    rw [List.length_append]
    exact Nat.le_add_right _ _
  exact h (s ++ rest) hlength rest

end

/-! ## Numbers -/

/-- A fault, if there is one, is at the node itself: the path has no step. -/
def AtRoot (x : Except Fault α) : Prop := ∀ f, x = .error f → f.path = []

theorem atRoot_ok (a : α) : AtRoot (.ok a) := by
  intro f h
  cases h

theorem atRoot_failAt (bytes : Nat) (p : Problem) (s : List Char) :
    AtRoot (failAt (α := α) bytes p s) := by
  intro f h
  cases h
  rfl

theorem AtRoot.bind {r : Reader α} {f : α → Reader β} {s : List Char} (h : AtRoot (r s))
    (hf : ∀ a t, AtRoot (f a t)) : AtRoot ((r >>= f) s) := by
  cases hr : r s with
  | error e =>
    rw [bind_of_error hr]
    intro f hf
    cases hf
    exact h e hr
  | ok p =>
    rw [bind_of_ok hr]
    exact hf p.1 p.2

theorem atRoot_float (negative : Bool) (significand : Nat) (e : Int) (s : List Char) :
    AtRoot (float negative significand e s) := by
  unfold float
  split
  · exact atRoot_ok _
  · exact atRoot_failAt _ _ _

theorem atRoot_exponent (negative : Bool) (significand : Nat) (e : Int) (s : List Char) :
    AtRoot (exponent negative significand e s) := by
  unfold exponent
  dsimp only
  split
  · exact atRoot_failAt _ _ _
  · split
    · exact atRoot_failAt _ _ _
    · split
      · exact atRoot_float _ _ _ _
      · split
        · exact atRoot_failAt _ _ _
        · exact atRoot_ok _

theorem atRoot_decimals (negative : Bool) (significand : Nat) (e : Int) (s : List Char) :
    AtRoot (decimals negative significand e s) := by
  unfold decimals
  dsimp only
  split
  · exact atRoot_failAt _ _ _
  · exact atRoot_failAt _ _ _
  · split
    · exact atRoot_exponent _ _ _ _
    · exact atRoot_float _ _ _ _

theorem atRoot_fraction (negative : Bool) (significand excess : Nat) (s : List Char) :
    AtRoot (fraction negative significand excess s) := by
  unfold fraction
  split
  · exact atRoot_decimals _ _ _ _
  · split
    · exact atRoot_exponent _ _ _ _
    · split
      · exact atRoot_float _ _ _ _
      · split
        · split <;> exact atRoot_ok _
        · exact atRoot_ok _

/-- **A number that cannot be read is a fault at the node itself.** -/
theorem atRoot_number (negative : Bool) (s : List Char) : AtRoot (number negative s) := by
  unfold number
  split
  · exact atRoot_failAt _ _ _
  · split
    · exact atRoot_failAt _ _ _
    · split
      · split
        · exact atRoot_failAt _ _ _
        · exact atRoot_fraction _ _ _ _
      · exact atRoot_fraction _ _ _ _

theorem atRoot_exactly (word s : List Char) : AtRoot (exactly word s) := by
  induction word generalizing s with
  | nil => exact atRoot_ok _
  | cons c word ih =>
    unfold exactly
    split
    · exact atRoot_failAt _ _ _
    · split
      · exact ih _
      · exact atRoot_failAt _ _ _

/-! ## Numbers and booleans in the place of strings -/

/-- Decimal digits, at least one. -/
def IsDigits (s : List Char) : Prop := s ≠ [] ∧ ∀ c ∈ s, c.isDigit = true

instance (s : List Char) : Decidable (IsDigits s) :=
  @instDecidableAnd _ _ _ (List.decidableBAll (fun c => c.isDigit = true) s)

/-- A number of JSON text: perhaps a sign, then digits of which only a single one may start with
zero, then perhaps decimals and perhaps an exponent. -/
inductive IsNumber : List Char → Prop
  | intro {sign whole decimals exponent : List Char} (hsign : sign = [] ∨ sign = ['-'])
      (hwhole : IsDigits whole) (hzero : whole.head? = some '0' → whole = ['0'])
      (hdecimals : decimals = [] ∨ ∃ ds, IsDigits ds ∧ decimals = '.' :: ds)
      (hexponent : exponent = [] ∨ ∃ mark sign ds, (mark = 'e' ∨ mark = 'E') ∧
        (sign = [] ∨ sign = ['+'] ∨ sign = ['-']) ∧ IsDigits ds ∧
        exponent = mark :: (sign ++ ds)) :
      IsNumber (sign ++ (whole ++ (decimals ++ exponent)))

/-- A number or a boolean. -/
def IsNumberOrBool (v : List Char) : Prop :=
  IsNumber v ∨ v = ['t', 'r', 'u', 'e'] ∨ v = ['f', 'a', 'l', 's', 'e']

/-- A character with which a number or a boolean starts. -/
def startsNumberOrBool (c : Char) : Bool := c == '-' || c.isDigit || c == 't' || c == 'f'

theorem IsNumberOrBool.eq_cons {v : List Char} (h : IsNumberOrBool v) :
    ∃ c s, v = c :: s ∧ startsNumberOrBool c = true := by
  rcases h with h | rfl | rfl
  · cases h with
    | @intro sign whole decimals exponent hsign hwhole _ _ _ =>
      rcases hsign with rfl | rfl
      · obtain ⟨c, ds, rfl⟩ := List.exists_cons_of_ne_nil hwhole.1
        have hc := hwhole.2 c List.mem_cons_self
        exact ⟨c, _, rfl, by simp [startsNumberOrBool, hc]⟩
      · exact ⟨'-', _, rfl, rfl⟩
  · exact ⟨'t', _, rfl, rfl⟩
  · exact ⟨'f', _, rfl, rfl⟩

theorem ne_of_startsNumberOrBool {c d : Char} (h : startsNumberOrBool c = true)
    (hd : startsNumberOrBool d = false) : c ≠ d := by
  rintro rfl
  rw [h] at hd
  cases hd

theorem isGap_of_startsNumberOrBool {c : Char} (h : startsNumberOrBool c = true) :
    isGap c = false := by
  have hne := fun d hd => ne_of_startsNumberOrBool (d := d) h hd
  simp [isGap, hne ' ' rfl, hne '\n' rfl, hne '\t' rfl, hne '\r' rfl]

/-- Saying which number or boolean stands here may fail, but only at the node itself. -/
theorem atRoot_kind {c : Char} (hc : startsNumberOrBool c = true) (s : List Char) :
    AtRoot (unexpected.kind (c :: s)) := by
  have hn := ne_of_startsNumberOrBool (d := 'n') hc rfl
  by_cases ht : c = 't'
  · rw [ht]
    exact (atRoot_exactly ['r', 'u', 'e'] s).bind (f := fun _ => pure (Found.bool true))
      fun _ _ => atRoot_ok _
  by_cases hf : c = 'f'
  · rw [hf]
    exact (atRoot_exactly ['a', 'l', 's', 'e'] s).bind (f := fun _ => pure (Found.bool false))
      fun _ _ => atRoot_ok _
  by_cases hminus : c = '-'
  · rw [hminus]
    exact atRoot_number true s
  have hdigit : c.isDigit = true := by
    simpa [startsNumberOrBool, ht, hf, hminus] using hc
  have hkind : unexpected.kind (c :: s) = number false (c :: s) := by
    show (if c = 'n' then _ else if c = 't' then _ else if c = 'f' then _ else
      if c = '-' then _ else if c.isDigit then number false else _ : Reader Found) (c :: s) = _
    rw [if_neg hn, if_neg ht, if_neg hf, if_neg hminus, if_pos hdigit]
  rw [hkind]
  exact atRoot_number false (c :: s)

/-- A number or a boolean in the place of something else is a fault at the node itself. -/
theorem unexpected_of_startsNumberOrBool {c : Char} (hc : startsNumberOrBool c = true)
    (expected : String) (s : List Char) :
    ∃ f, unexpected (α := α) expected (c :: s) = .error f ∧ f.path = [] := by
  cases hkind : unexpected.kind (c :: s) with
  | error f => exact ⟨f, bind_of_error hkind, atRoot_kind hc s f hkind⟩
  | ok r => exact ⟨_, bind_of_ok hkind, rfl⟩

/-- **A number or a boolean is no string**, and the fault is at the node itself. -/
theorem fails_text {v : List Char} (hv : IsNumberOrBool v) {gap : List Char} (hg : IsGap gap) :
    Fails text (gap ++ v) [] := by
  obtain ⟨c, s, rfl, hc⟩ := hv.eq_cons
  refine Fails.token (fun rest => ?_) (isGap_of_startsNumberOrBool hc) hg
  generalize htok : some c = token
  split
  · cases htok
  · exact absurd (Option.some.inj htok) (ne_of_startsNumberOrBool hc rfl)
  · exact unexpected_of_startsNumberOrBool hc "a string" (s ++ rest)

/-! ## Lists and records -/

variable {gap : List Char} {path : List Step}

/-- An item splits the items into those in front of it and those behind it. -/
theorem separated_append (gap : List Char) (first : Bool) (ss : List (List Char)) (s : List Char)
    (others : List (List Char)) :
    separated gap first (ss ++ s :: others) =
      separated gap first ss ++
        (lead (first && ss.isEmpty) gap ++ (s ++ separated gap false others)) := by
  induction ss generalizing first with
  | nil =>
    rw [List.isEmpty_nil, Bool.and_true]
    rfl
  | cons t ss ih =>
    rw [List.cons_append, separated, ih, separated, List.isEmpty_cons, Bool.and_false,
      Bool.false_and]
    simp only [List.append_assoc]

/-- There are no more items than characters. -/
theorem length_le_separated_append {gap : List Char} {first : Bool} {ss : List (List Char)}
    (h : ∀ s ∈ ss, s ≠ []) (s : List Char) (others : List (List Char)) :
    ss.length ≤ (separated gap first (ss ++ s :: others)).length := by
  have hss : ss.length ≤ (separated gap first ss).length := length_le_separated h
  rw [separated_append, List.length_append]
  omega

/-- **The loop of a list stops at an item that fails**, the items in front of it being read. -/
theorem elements_fails (hg : IsGap gap) {element : Reader α} {written : α → List Char} {xs : List α}
    (h : ∀ x ∈ xs, Reads element (written x) x) (hopen : ∀ x ∈ xs, ∃ s, written x = '{' :: s)
    {s : List Char} (hs : Fails element ('{' :: s) path) {fuel i : Nat} (hf : xs.length < fuel)
    (others : List (List Char)) :
    Fails (elements element fuel i)
      (separated gap (i == 0) (xs.map written ++ ('{' :: s) :: others))
      (.index (i + xs.length) :: path) := by
  intro rest
  -- Every item takes one step of the loop, so a step is left for the one that fails.
  obtain ⟨fuel, rfl⟩ : ∃ k, fuel = k + 1 := ⟨fuel - 1, by omega⟩
  induction xs generalizing fuel i with
  | nil =>
    have hitem := (hs.under (.index i)).bind fun a => elements element fuel (i + 1) >>= fun as =>
      pure (a :: as)
    obtain ⟨e, he, hpath⟩ := hitem (separated gap false others ++ rest)
    rw [List.map_nil, List.nil_append, separated, List.append_assoc, List.append_assoc]
    exact ⟨e, (elements_next hg element fuel i _).trans he, hpath⟩
  | cons x xs ih =>
    obtain ⟨u, hu⟩ := hopen x List.mem_cons_self
    have hx := (h x List.mem_cons_self).under (.index i)
    obtain ⟨fuel, rfl⟩ : ∃ k, fuel = k + 1 := ⟨fuel - 1, by simp at hf; omega⟩
    obtain ⟨e, he, hpath⟩ := ih (fun y hy => h y (List.mem_cons_of_mem x hy))
      (fun y hy => hopen y (List.mem_cons_of_mem x hy)) (i := i + 1) fuel
      (Nat.lt_of_succ_lt_succ hf)
    refine ⟨e, ?_, ?_⟩
    · rw [List.map_cons, List.cons_append, separated, List.append_assoc, List.append_assoc]
      rw [hu] at hx ⊢
      refine (elements_next hg element (fuel + 1) i _).trans ?_
      refine (bind_of_ok (hx _)).trans ?_
      exact bind_of_error he
    · rw [hpath, List.length_cons]
      congr 2
      omega

/-- **A list fails at an item that fails**, the items in front of it being read. -/
theorem fails_list (hg : IsGap gap) {gap' : List Char} (hg' : IsGap gap') {element : Reader α}
    {written : α → List Char} {xs : List α} (h : ∀ x ∈ xs, Reads element (written x) x)
    (hopen : ∀ x ∈ xs, ∃ s, written x = '{' :: s) {s : List Char}
    (hs : Fails element ('{' :: s) path) (others : List (List Char)) :
    Fails (list element)
      (gap' ++ '[' :: separated gap true (xs.map written ++ ('{' :: s) :: others))
      (.index xs.length :: path) := by
  have hlength : xs.length ≤
      (separated gap true (xs.map written ++ ('{' :: s) :: others)).length := by
    rw [← List.length_map written]
    exact length_le_separated_append (ne_nil_of_opens hopen) _ _
  refine Fails.token (Fails.advance (Fails.get fun all hall => ?_) '[') rfl hg'
  have hstop := elements_fails hg h hopen hs (i := 0) (show xs.length < all.length + 1 by omega)
    others
  rw [Nat.zero_add] at hstop
  exact hstop.bind _

/-- **The loop of a record stops at a field that fails**, the fields in front of it being read. -/
theorem keyed_fails (hg : IsGap gap) {t : RecordType σ} {r r' : σ}
    {fields : List (String × List Char)} (h : ReadsFields t r fields r') {name : String}
    {f : Field σ} (hfind : t.fields.find? (·.name == name) = some f) (hset : f.isSet r' = false)
    {s : List Char} (hs : Fails (f.read r') s path) {fuel : Nat} (hf : fields.length < fuel)
    (first : Bool) (others : List (List Char)) :
    Fails (keyed t fuel first r)
      (separated gap first (fields.map fieldText ++ fieldText (name, s) :: others))
      (.key name :: path) := by
  intro rest
  obtain ⟨fuel, rfl⟩ : ∃ k, fuel = k + 1 := ⟨fuel - 1, by omega⟩
  induction h generalizing fuel first with
  | nil r =>
    have hfield := (hs.under (.key name)).bind (keyed t fuel false)
    obtain ⟨e, he, hpath⟩ := hfield (separated gap false others ++ rest)
    rw [List.map_nil, List.nil_append, separated, List.append_assoc, List.append_assoc]
    exact ⟨e, (keyed_next hg hfind hset fuel first s _).trans he, hpath⟩
  | @cons r r₁ r₂ name' f' s' fields hfind' hset' hread _ ih =>
    obtain ⟨fuel, rfl⟩ : ∃ k, fuel = k + 1 := ⟨fuel - 1, by simp at hf; omega⟩
    obtain ⟨e, he, hpath⟩ := ih hset hs false fuel (Nat.lt_of_succ_lt_succ hf)
    refine ⟨e, ?_, hpath⟩
    rw [List.map_cons, List.cons_append, separated, List.append_assoc, List.append_assoc]
    refine (keyed_next hg hfind' hset' (fuel + 1) first s' _).trans ?_
    refine (bind_of_ok (hread.under (.key name') _)).trans ?_
    exact he

/-- **A record fails at a field that fails**, the fields in front of it being read. -/
theorem fails_record (hg : IsGap gap) {gap' : List Char} (hg' : IsGap gap') {t : RecordType σ}
    {r : σ} {fields : List (String × List Char)} (h : ReadsFields t t.empty fields r)
    {name : String} {f : Field σ} (hfind : t.fields.find? (·.name == name) = some f)
    (hset : f.isSet r = false) {s : List Char} (hs : Fails (f.read r) s path)
    (others : List (List Char)) :
    Fails (record t)
      (gap' ++ '{' :: separated gap true (fields.map fieldText ++ fieldText (name, s) :: others))
      (.key name :: path) := by
  have hlength : fields.length ≤
      (separated gap true (fields.map fieldText ++ fieldText (name, s) :: others)).length := by
    rw [← List.length_map fieldText]
    exact length_le_separated_append (fieldText_ne_nil fields) _ _
  refine Fails.token (Fails.advance (Fails.get fun all hall => ?_) '{') rfl hg'
  exact keyed_fails hg h hfind hset hs (show fields.length < all.length + 1 by omega) true others

end DartUnion.Json
