import DartUnion.Json.Print
import DartUnion.Json.Record

/-!
# Values that are read as they were written

A reader takes a value from the front of a text and leaves the rest. It reads a text as a value when
this holds with any rest (`Reads`), so readers that follow each other read the texts one behind the
other. A token may have a gap in front of it: the printer puts line ends and indentation there.

Lists and records are written alike, as items between brackets with commas between them
(`separated`), and read alike, by a loop that asks in front of every item whether there is one. What
the loop of a record has to do with its fields is a relation between partial records
(`ReadsFields`).

Results:
* `body_stringChar`: a written character is read as that character, escaped or not.
* `reads_text`, `reads_list`, `reads_record`: **strings, lists and records are read as written.**
-/

namespace DartUnion.Json

variable {α β σ : Type}

/-- The reader takes the text from the front of any text that starts with it, as the value. -/
def Reads (r : Reader α) (s : List Char) (a : α) : Prop := ∀ rest, r (s ++ rest) = .ok (a, rest)

/-- White space between tokens. -/
def IsGap (gap : List Char) : Prop := ∀ c ∈ gap, isGap c = true

theorem isGap_nil : IsGap [] := fun _ h => absurd h List.not_mem_nil

/-! ## Readers in a row -/

/-- What is read first is passed on. -/
theorem bind_of_ok {r : Reader α} {f : α → Reader β} {s t : List Char} {a : α}
    (h : r s = .ok (a, t)) : (r >>= f) s = f a t := by
  show (r s >>= fun p => f p.1 p.2) = f a t
  rw [h]
  rfl

theorem Reads.pure (a : α) : Reads (pure a) [] a := fun _ => rfl

theorem Reads.bind {r : Reader α} {f : α → Reader β} {s t : List Char} {a : α} {b : β}
    (hr : Reads r s a) (hf : Reads (f a) t b) : Reads (r >>= f) (s ++ t) b := by
  intro rest
  rw [List.append_assoc, bind_of_ok (hr (t ++ rest)), hf rest]

theorem Reads.bind_pure {r : Reader α} {s : List Char} {a : α} (h : Reads r s a) (f : α → β) :
    Reads (r >>= fun a => Pure.pure (f a)) s (f a) := by
  have hbind := h.bind (f := fun a => Pure.pure (f a)) (Reads.pure (f a))
  rwa [List.append_nil] at hbind

theorem Reads.map {r : Reader α} {s : List Char} {a : α} (h : Reads r s a) (f : α → β) :
    Reads (f <$> r) s (f a) :=
  h.bind_pure f

theorem Reads.under {r : Reader α} {s : List Char} {a : α} (h : Reads r s a) (step : Step) :
    Reads (under step r) s a := by
  intro rest
  rw [Json.under, h rest]
  rfl

theorem advance_cons (c : Char) (s : List Char) : advance (c :: s) = .ok ((), s) := rfl

/-- What is read behind a character that is passed over. -/
theorem Reads.advance {r : Reader β} {s : List Char} {b : β} (h : Reads r s b) (c : Char) :
    Reads (advance >>= fun _ => r) (c :: s) b := by
  intro rest
  rw [List.cons_append, bind_of_ok (advance_cons c _), h rest]

/-- A token is seen behind a gap, and only the gap is passed over. -/
theorem nextToken_gap {gap : List Char} (hg : IsGap gap) {c : Char} (hc : isGap c = false)
    (s : List Char) : nextToken (gap ++ c :: s) = .ok (some c, c :: s) := by
  unfold nextToken
  rw [List.dropWhile_append_of_pos hg, List.dropWhile_cons_of_neg (by rw [hc]; decide)]
  rfl

/-- A reader that starts by looking at a token reads that token's text behind a gap, too. -/
theorem Reads.token {f : Option Char → Reader β} {c : Char} {s : List Char} {b : β}
    (h : Reads (f (some c)) (c :: s) b) (hc : isGap c = false) {gap : List Char} (hg : IsGap gap) :
    Reads (nextToken >>= f) (gap ++ c :: s) b := by
  intro rest
  rw [List.append_assoc, List.cons_append, bind_of_ok (nextToken_gap hg hc _)]
  exact h rest

/-- A reader that looks at all that is left reads a text whatever is left behind it. -/
theorem Reads.get {f : List Char → Reader β} {s : List Char} {b : β}
    (h : ∀ all : List Char, s.length ≤ all.length → Reads (f all) s b) : Reads (get >>= f) s b := by
  intro rest
  have hlength : s.length ≤ (s ++ rest).length := by
    rw [List.length_append]
    exact Nat.le_add_right _ _
  exact h (s ++ rest) hlength rest

/-! ## Strings -/

/-- A written hexadecimal digit is read. -/
theorem hexDigit?_digitChar : ∀ n < 16, hexDigit? (Nat.digitChar n) = some n := by decide

theorem hexDigits?_controlDigits {n : Nat} (h : n < 0x20) (s : List Char) :
    hexDigits? (controlDigits n ++ s) = some (n, s) := by
  have hzero : hexDigit? '0' = some 0 := by decide
  have hhigh := hexDigit?_digitChar (n / 16) (by omega)
  have hlow := hexDigit?_digitChar (n % 16) (by omega)
  have hsum : 0 * 4096 + 0 * 256 + n / 16 * 16 + n % 16 = n := by omega
  unfold controlDigits
  simp only [List.cons_append, List.nil_append, hexDigits?, hzero, hhigh, hlow,
    Option.bind_eq_bind, Option.bind_some, hsum]
  rfl

/-- A control is read from its four digits. -/
theorem unicodeEscape_controlDigits {c : Char} (h : c.toNat < 0x20) (s : List Char) :
    unicodeEscape (controlDigits c.toNat ++ s) = .ok (c, s) := by
  have hunit : unit (controlDigits c.toNat ++ s) = .ok (c.toNat, s) := by
    unfold unit
    rw [hexDigits?_controlDigits h]
  have hsurrogate : isLow c.toNat = false ∧ isHigh c.toNat = false := by
    unfold isLow isHigh
    simp only [Bool.and_eq_false_iff, decide_eq_false_iff_not]
    omega
  unfold unicodeEscape
  rw [hunit]
  simp only [hsurrogate.1, hsurrogate.2, Bool.false_eq_true, if_false, Char.ofNat_toNat]

/-- An escape within a string is read as the character it stands for. -/
theorem body_escape {s t : List Char} {c : Char} (h : escape true s = .ok (c, t)) :
    body true ('\\' :: s) = (body true t).map fun r => (c :: r.1, r.2) := by
  rw [body, if_neg (by decide), if_pos rfl]
  split
  · next he =>
    rw [h] at he
    cases he
  · next he =>
    rw [h] at he
    obtain ⟨rfl, rfl⟩ := Prod.mk.inj (Except.ok.inj he)
    rfl

/-- A character is written as a letter behind a backslash, as four digits, or as itself. -/
theorem stringChar_cases (c : Char) :
    (∃ d, stringChar c = ['\\', d] ∧ d ≠ 'u' ∧ shortEscape? d = some c) ∨
      (stringChar c = '\\' :: 'u' :: controlDigits c.toNat ∧ c.toNat < 0x20) ∨
        (stringChar c = [c] ∧ c ≠ '"' ∧ c ≠ '\\' ∧ ¬ c.toNat < 0x20) := by
  by_cases hshort : c ∈ ['"', '\\', '\x08', '\t', '\n', '\x0c', '\r']
  · refine .inl ?_
    simp only [List.mem_cons, List.not_mem_nil, or_false] at hshort
    rcases hshort with rfl | rfl | rfl | rfl | rfl | rfl | rfl
    all_goals exact ⟨_, rfl, by decide, rfl⟩
  · refine .inr ?_
    simp only [List.mem_cons, List.not_mem_nil, or_false, not_or] at hshort
    obtain ⟨hquote, hescape, hb, ht, hn, hf, hr⟩ := hshort
    unfold stringChar
    rw [if_neg hquote, if_neg hescape, if_neg hb, if_neg ht, if_neg hn, if_neg hf, if_neg hr]
    by_cases hcontrol : c.toNat < 0x20
    · rw [if_pos hcontrol]
      exact .inl ⟨rfl, hcontrol⟩
    · rw [if_neg hcontrol]
      exact .inr ⟨rfl, hquote, hescape, hcontrol⟩

/-- **A written character is read as that character.** -/
theorem body_stringChar (c : Char) (s : List Char) :
    body true (stringChar c ++ s) = (body true s).map fun r => (c :: r.1, r.2) := by
  rcases stringChar_cases c with ⟨d, h, hd, hshort⟩ | ⟨h, hcontrol⟩ | ⟨h, hquote, hescape, hcontrol⟩
  · rw [h]
    refine body_escape (?_ : escape true (d :: s) = .ok (c, s))
    rw [escape, if_neg hd, hshort]
  · rw [h]
    refine body_escape (?_ : escape true ('u' :: (controlDigits c.toNat ++ s)) = .ok (c, s))
    rw [escape, if_pos rfl, if_pos rfl, unicodeEscape_controlDigits hcontrol]
  · rw [h, List.singleton_append, body, if_neg hquote, if_neg hescape, if_neg hcontrol]

/-- The body of a string ends at the quote behind it. -/
theorem body_written (s rest : List Char) :
    body true (s.flatMap stringChar ++ '"' :: rest) = .ok (s, rest) := by
  induction s with
  | nil =>
    rw [List.flatMap_nil, List.nil_append, body, if_pos rfl]
  | cons c s ih =>
    rw [List.flatMap_cons, List.append_assoc, body_stringChar, ih]
    rfl

theorem reads_string (s : String) : Reads string (s.toList.flatMap stringChar ++ ['"']) s := by
  intro rest
  rw [List.append_assoc]
  unfold string
  rw [List.singleton_append, body_written]
  simp only [Except.map, String.ofList_toList]

/-- **A string is read as it was written.** -/
theorem reads_text (s : String) (depth : Nat) {gap : List Char} (hg : IsGap gap) :
    Reads text (gap ++ ofString s depth) s :=
  ((reads_string s).advance '"').token rfl hg

/-- A string where `null` might stand. -/
theorem reads_optionalText (s : String) (depth : Nat) {gap : List Char} (hg : IsGap gap) :
    Reads optionalText (gap ++ ofString s depth) (some s) :=
  Reads.token ((reads_text s depth isGap_nil).bind_pure some) rfl hg

/-! ## Items between brackets -/

/-- What stands in front of an item: a comma, unless it is the first one, and a gap. -/
def lead (first : Bool) (gap : List Char) : List Char := if first then gap else ',' :: gap

/-- Items with commas between them and a gap in front of each. -/
def separated (gap : List Char) : (first : Bool) → List (List Char) → List Char
  | _, [] => []
  | first, s :: ss => lead first gap ++ (s ++ separated gap false ss)

theorem isGap_newLine (depth : Nat) : IsGap (newLine depth) := by
  intro c hc
  unfold newLine at hc
  rcases List.mem_cons.1 hc with rfl | hc
  · rfl
  · rw [List.eq_of_mem_replicate hc]
    rfl

theorem length_le_separated {gap : List Char} {first : Bool} {ss : List (List Char)}
    (h : ∀ s ∈ ss, s ≠ []) : ss.length ≤ (separated gap first ss).length := by
  induction ss generalizing first with
  | nil => exact Nat.zero_le _
  | cons s ss ih =>
    have hs := List.length_pos_iff.2 (h s List.mem_cons_self)
    have hrest : ss.length ≤ (separated gap false ss).length :=
      ih fun t ht => h t (List.mem_cons_of_mem s ht)
    rw [separated, List.length_append, List.length_append, List.length_cons]
    omega

/-- Items that start with a brace are not empty. -/
theorem ne_nil_of_opens {written : α → List Char} {xs : List α}
    (h : ∀ x ∈ xs, ∃ s, written x = '{' :: s) : ∀ s ∈ xs.map written, s ≠ [] := by
  intro s hs
  obtain ⟨x, hx, rfl⟩ := List.mem_map.1 hs
  obtain ⟨t, ht⟩ := h x hx
  rw [ht]
  exact List.cons_ne_nil _ _

/-- Behind the first item the commas that the printer puts between items stand in front of them. -/
theorem intercalate_eq_separated (gap s : List Char) (ss : List (List Char)) :
    [','].intercalate ((s :: ss).map fun t => gap ++ t) = gap ++ (s ++ separated gap false ss) := by
  induction ss generalizing s with
  | nil => simp [separated]
  | cons t ss ih =>
    rw [List.map_cons, List.map_cons, List.intercalate_cons_cons, ← List.map_cons, ih, separated,
      List.append_assoc, List.append_assoc]
    rfl

/-- **A block that holds items is these items** between the brackets, the closing one on a line of
its own. -/
theorem block_of_ne_nil (opening closing : Char) {items : List Layout} (h : items ≠ [])
    (depth : Nat) : block opening closing items depth =
      opening :: (separated (newLine (depth + 1)) true (items.map fun item => item (depth + 1)) ++
        (newLine depth ++ [closing])) := by
  obtain ⟨item, items, rfl⟩ := List.exists_cons_of_ne_nil h
  have hitems := intercalate_eq_separated (newLine (depth + 1)) (item (depth + 1))
    (items.map fun item => item (depth + 1))
  rw [← List.map_cons (f := fun item : Layout => item (depth + 1)), List.map_map] at hitems
  unfold block
  rw [List.isEmpty_cons, if_neg Bool.false_ne_true, List.append_assoc]
  exact congrArg (fun s => opening :: (s ++ (newLine depth ++ [closing]))) hitems

/-- **A block is its items** between the brackets, with a gap in front of the closing one. -/
theorem block_eq (opening closing : Char) (items : List Layout) (depth : Nat) :
    ∃ gap, IsGap gap ∧ block opening closing items depth =
      opening :: (separated (newLine (depth + 1)) true (items.map fun item => item (depth + 1)) ++
        (gap ++ [closing])) := by
  by_cases h : items = []
  · subst h
    exact ⟨[], isGap_nil, rfl⟩
  · exact ⟨newLine depth, isGap_newLine depth, block_of_ne_nil opening closing h depth⟩

/-! ## Lists -/

variable {gap : List Char}

theorem hasElement_lead (hg : IsGap gap) {c : Char} (hc : isGap c = false) (hend : c ≠ ']')
    (first : Bool) (s : List Char) :
    hasElement first (lead first gap ++ c :: s) = .ok (true, c :: s) := by
  have htoken := nextToken_gap hg hc s
  cases first with
  | true =>
    refine (bind_of_ok htoken).trans ?_
    simp only [if_neg hend, Bool.not_true, Bool.and_false]
    rfl
  | false =>
    have hcomma := nextToken_gap isGap_nil (c := ',') rfl (gap ++ c :: s)
    refine (bind_of_ok hcomma).trans ?_
    simp only
    rw [if_neg (by decide), if_pos (by decide)]
    refine (bind_of_ok (advance_cons ',' (gap ++ c :: s))).trans ?_
    refine (bind_of_ok htoken).trans ?_
    generalize htok : some c = token
    split
    · exact absurd (Option.some.inj htok) hend
    · rfl
    · cases htok

theorem hasElement_end (hg : IsGap gap) (first : Bool) (rest : List Char) :
    hasElement first (gap ++ ']' :: rest) = .ok (false, ']' :: rest) :=
  bind_of_ok (nextToken_gap hg rfl rest)

/-- **A step of the loop of a list**: an item that starts with a brace is read under its index. -/
theorem elements_next (hg : IsGap gap) (element : Reader α) (fuel i : Nat) (s : List Char) :
    elements element (fuel + 1) i (lead (i == 0) gap ++ '{' :: s) =
      (under (.index i) element >>= fun a => elements element fuel (i + 1) >>= fun as =>
        Pure.pure (a :: as)) ('{' :: s) := by
  refine (bind_of_ok (hasElement_lead hg rfl (by decide) (i == 0) s)).trans ?_
  rw [if_pos rfl]

/-- **The loop of a list** reads the items that are left, up to the closing bracket. -/
theorem elements_separated (hg : IsGap gap) {gap' : List Char} (hg' : IsGap gap')
    {element : Reader α} {written : α → List Char} {xs : List α}
    (h : ∀ x ∈ xs, Reads element (written x) x)
    (hopen : ∀ x ∈ xs, ∃ s, written x = '{' :: s) {fuel i : Nat} (hf : xs.length < fuel)
    (rest : List Char) :
    elements element fuel i (separated gap (i == 0) (xs.map written) ++ (gap' ++ ']' :: rest)) =
      .ok (xs, ']' :: rest) := by
  induction xs generalizing fuel i with
  | nil =>
    cases fuel with
    | zero => exact absurd hf (Nat.not_lt_zero _)
    | succ fuel => exact bind_of_ok (hasElement_end hg' (i == 0) rest)
  | cons x xs ih =>
    cases fuel with
    | zero => exact absurd hf (Nat.not_lt_zero _)
    | succ fuel =>
      obtain ⟨s, hs⟩ := hopen x List.mem_cons_self
      have hx := (h x List.mem_cons_self).under (.index i)
      have hrest := ih (fun y hy => h y (List.mem_cons_of_mem x hy))
        (fun y hy => hopen y (List.mem_cons_of_mem x hy)) (Nat.lt_of_succ_lt_succ hf) (i := i + 1)
      rw [List.map_cons, separated, List.append_assoc, List.append_assoc]
      rw [hs] at hx ⊢
      refine (elements_next hg element fuel i _).trans ?_
      refine (bind_of_ok (hx _)).trans ?_
      exact bind_of_ok hrest

theorem endList_closing (hg : IsGap gap) (rest : List Char) :
    endList (gap ++ ']' :: rest) = .ok ((), rest) :=
  bind_of_ok (nextToken_gap hg rfl rest)

/-- **A list is read as it was written**, if its elements are and start with a brace. -/
theorem reads_list (hg : IsGap gap) {element : Reader α} {layout : α → Layout} {xs : List α}
    {depth : Nat} (h : ∀ x ∈ xs, Reads element (layout x (depth + 1)) x)
    (hopen : ∀ x ∈ xs, ∃ s, layout x (depth + 1) = '{' :: s) :
    Reads (list element) (gap ++ ofList (xs.map layout) depth) xs := by
  obtain ⟨gap', hg', hblock⟩ := block_eq '[' ']' (xs.map layout) depth
  have hitems : (xs.map layout).map (fun item => item (depth + 1)) =
      xs.map fun x => layout x (depth + 1) := List.map_map
  have hlength : xs.length ≤
      (separated (newLine (depth + 1)) true (xs.map fun x => layout x (depth + 1))).length := by
    rw [← List.length_map (fun x => layout x (depth + 1))]
    exact length_le_separated (ne_nil_of_opens hopen)
  unfold ofList
  rw [hblock, hitems]
  refine Reads.token (Reads.advance (Reads.get fun all hall rest => ?_) '[') rfl hg
  rw [List.length_append] at hall
  have helements := elements_separated (isGap_newLine (depth + 1)) hg' h hopen (i := 0)
    (show xs.length < all.length + 1 by omega) rest
  rw [List.append_assoc, List.append_assoc]
  refine (bind_of_ok helements).trans ?_
  exact bind_of_ok (endList_closing isGap_nil rest)

/-! ## Records -/

variable {t : RecordType σ} {r r' : σ}

/-- The fields, given by name and written value, lead from one partial record to another: each is a
field of the type that was not read before. -/
inductive ReadsFields (t : RecordType σ) : σ → List (String × List Char) → σ → Prop
  | nil (r : σ) : ReadsFields t r [] r
  | cons {r r' r'' : σ} {name : String} {f : Field σ} {s : List Char}
      {fields : List (String × List Char)} : t.fields.find? (·.name == name) = some f →
      f.isSet r = false → Reads (f.read r) s r' → ReadsFields t r' fields r'' →
      ReadsFields t r ((name, s) :: fields) r''

/-- A field as it is written. -/
def fieldText (field : String × List Char) : List Char := ofString field.1 0 ++ ':' :: field.2

/-- Fields are not empty. -/
theorem fieldText_ne_nil (fields : List (String × List Char)) :
    ∀ s ∈ fields.map fieldText, s ≠ [] := by
  intro s hs
  obtain ⟨f, -, rfl⟩ := List.mem_map.1 hs
  exact List.cons_ne_nil _ _

/-- The items of a record are its fields. -/
theorem map_fieldText (fields : List (String × Layout)) (depth : Nat) :
    (fields.map fun f => fun depth => ofString f.1 depth ++ [':', ' '] ++ f.2 depth).map
        (fun item => item depth) =
      (fields.map fun f => (f.1, ' ' :: f.2 depth)).map fieldText := by
  rw [List.map_map, List.map_map]
  exact List.map_congr_left fun f _ => List.append_assoc _ _ _

theorem hasKey_lead (hg : IsGap gap) (first : Bool) (s : List Char) :
    hasKey first (lead first gap ++ '"' :: s) = .ok (true, '"' :: s) := by
  have htoken := nextToken_gap hg (c := '"') rfl s
  cases first with
  | true => exact bind_of_ok htoken
  | false =>
    have hcomma := nextToken_gap isGap_nil (c := ',') rfl (gap ++ '"' :: s)
    refine (bind_of_ok hcomma).trans ?_
    simp only
    rw [if_neg (by decide), if_pos (by decide)]
    refine (bind_of_ok (advance_cons ',' (gap ++ '"' :: s))).trans ?_
    exact bind_of_ok htoken

theorem key?_lead (hg : IsGap gap) (first : Bool) (name : String) (depth : Nat) (s : List Char) :
    key? first (lead first gap ++ (ofString name depth ++ s)) = .ok (some name, s) := by
  refine (bind_of_ok (hasKey_lead hg first _)).trans ?_
  exact ((reads_string name).bind_pure some).advance '"' s

theorem key?_end (hg : IsGap gap) (first : Bool) (rest : List Char) :
    key? first (gap ++ '}' :: rest) = .ok (none, '}' :: rest) := by
  have hkey : hasKey first (gap ++ '}' :: rest) = .ok (false, '}' :: rest) :=
    bind_of_ok (nextToken_gap hg rfl rest)
  exact bind_of_ok hkey

theorem colon_cons (s : List Char) : colon (':' :: s) = .ok ((), s) := rfl

/-- **A step of the loop of a record**: a field that was not read before is read under its name. -/
theorem keyed_next (hg : IsGap gap) {name : String} {f : Field σ}
    (hfind : t.fields.find? (·.name == name) = some f) (hset : f.isSet r = false) (fuel : Nat)
    (first : Bool) (s rest : List Char) :
    keyed t (fuel + 1) first r (lead first gap ++ (fieldText (name, s) ++ rest)) =
      (under (.key name) (f.read r) >>= keyed t fuel false) (s ++ rest) := by
  have hkey : under .unknown (key? first)
      (lead first gap ++ (ofString name 0 ++ (':' :: (s ++ rest)))) =
        .ok (some name, ':' :: (s ++ rest)) := by
    rw [under, key?_lead hg]
    rfl
  rw [fieldText, List.append_assoc, List.cons_append]
  refine (bind_of_ok hkey).trans ?_
  simp only [hfind, hset, Bool.false_eq_true, if_false]
  exact bind_of_ok (colon_cons _)

/-- **The loop of a record** reads the fields that are left, and the closing brace. -/
theorem keyed_separated (hg : IsGap gap) {gap' : List Char} (hg' : IsGap gap')
    {fields : List (String × List Char)} (h : ReadsFields t r fields r')
    (hm : t.missing? r' = none) {fuel : Nat} (hf : fields.length < fuel) (first : Bool)
    (rest : List Char) :
    keyed t fuel first r (separated gap first (fields.map fieldText) ++ (gap' ++ '}' :: rest)) =
      .ok (r', rest) := by
  induction h generalizing fuel first with
  | nil r =>
    cases fuel with
    | zero => exact absurd hf (Nat.not_lt_zero _)
    | succ fuel =>
      have hend : under .unknown (key? first) (gap' ++ '}' :: rest) = .ok (none, '}' :: rest) := by
        rw [under, key?_end hg']
        rfl
      refine (bind_of_ok hend).trans ?_
      simp only [hm]
      rfl
  | @cons r r₁ r₂ name f s fields hfind hset hread _ ih =>
    cases fuel with
    | zero => exact absurd hf (Nat.not_lt_zero _)
    | succ fuel =>
      have hrest := ih hm (Nat.lt_of_succ_lt_succ hf) false
      rw [List.map_cons, separated, List.append_assoc, List.append_assoc]
      refine (keyed_next hg hfind hset fuel first s _).trans ?_
      refine (bind_of_ok (hread.under (.key name) _)).trans ?_
      exact hrest

/-- **A record is read as it was written**, if its fields are and none is missing. -/
theorem reads_record (hg : IsGap gap) {fields : List (String × Layout)} {depth : Nat}
    (h : ReadsFields t t.empty (fields.map fun f => (f.1, ' ' :: f.2 (depth + 1))) r)
    (hm : t.missing? r = none) : Reads (record t) (gap ++ ofFields fields depth) r := by
  obtain ⟨gap', hg', hblock⟩ := block_eq '{' '}' (fields.map fun f => fun depth =>
    ofString f.1 depth ++ [':', ' '] ++ f.2 depth) depth
  have hitems := map_fieldText fields (depth + 1)
  generalize (fields.map fun f => (f.1, ' ' :: f.2 (depth + 1))) = written at h hitems
  have hlength : written.length ≤
      (separated (newLine (depth + 1)) true (written.map fieldText)).length := by
    rw [← List.length_map fieldText]
    exact length_le_separated (fieldText_ne_nil written)
  unfold ofFields
  rw [hblock, hitems]
  refine Reads.token (Reads.advance (Reads.get fun all hall rest => ?_) '{') rfl hg
  rw [List.length_append] at hall
  have hfuel : written.length < all.length + 1 := by omega
  rw [List.append_assoc, List.append_assoc]
  exact keyed_separated (isGap_newLine (depth + 1)) hg' h hm hfuel true rest

end DartUnion.Json
