import DartUnion.Json.Reader

/-!
# Strings of JSON text

The body of a string ends at a bare quote. Controls must not stand in it bare. A backslash starts an
escape: one of eight letters, or `u` and four hexadecimal digits, where a character beyond the first
plane takes two such escapes, a high and a low surrogate.

A string whose value nobody wants is only passed over: its four digits have to be digits, but
surrogates need no partner.

* `escape?` reads what stands behind a backslash, `body` the rest of a string.
* `length_escape`: an escape never gives text back.
-/

namespace DartUnion.Json

/-- The value of a hexadecimal digit. -/
def hexDigit? (c : Char) : Option Nat :=
  if '0' ≤ c && c ≤ '9' then some (c.toNat - '0'.toNat)
  else if 'a' ≤ c && c ≤ 'f' then some (c.toNat - 'a'.toNat + 10)
  else if 'A' ≤ c && c ≤ 'F' then some (c.toNat - 'A'.toNat + 10)
  else none

/-- The number of four hexadecimal digits. -/
def hexDigits? : List Char → Option (Nat × List Char)
  | a :: b :: c :: d :: s => do
    let a ← hexDigit? a
    let b ← hexDigit? b
    let c ← hexDigit? c
    let d ← hexDigit? d
    return (a * 4096 + b * 256 + c * 16 + d, s)
  | _ => none

/-- A text has fewer than so many bytes. -/
def shorterThan (bytes : Nat) (s : List Char) : Bool :=
  (s.take bytes).foldl (fun n c => n + c.utf8Size) 0 < bytes

/-- A code unit of four digits. What is no such unit spoils four bytes, or the end of the text. -/
def unit : Reader Nat := fun s =>
  match hexDigits? s with
  | some r => .ok r
  | none =>
    if shorterThan 4 s then fail .endInString [] else failAt 4 .invalidEscape s

/-- The unit is a high surrogate, which needs a low one behind it. -/
def isHigh (n : Nat) : Bool := 0xD800 ≤ n && n ≤ 0xDBFF

/-- The unit is a low surrogate, which needs a high one in front of it. -/
def isLow (n : Nat) : Bool := 0xDC00 ≤ n && n ≤ 0xDFFF

/-- The low surrogate behind a high one, as an escape of its own. -/
def lowUnit : Reader Nat := fun s =>
  match s with
  | [] => fail .endInString s
  | c :: t =>
    if c != '\\' then failAt 1 .endOfHexEscape s
    else match t with
      | [] => fail .endInString t
      | d :: u =>
        if d != 'u' then failAt 1 .endOfHexEscape t
        else match unit u with
          | .error e => .error e
          | .ok (n, v) => if isLow n then .ok (n, v) else fail .loneSurrogate v

/-- The character of an escape with four digits, or with twice four. -/
def unicodeEscape : Reader Char := fun s =>
  match unit s with
  | .error e => .error e
  | .ok (n, t) =>
    if isLow n then fail .loneSurrogate t
    else if isHigh n then
      match lowUnit t with
      | .error e => .error e
      | .ok (m, u) => .ok (Char.ofNat (0x10000 + (n - 0xD800) * 0x400 + (m - 0xDC00)), u)
    else .ok (Char.ofNat n, t)

/-- The character that a letter behind a backslash stands for. -/
def shortEscape? (c : Char) : Option Char :=
  if c = '"' || c = '\\' || c = '/' then some c
  else if c = 'b' then some '\x08'
  else if c = 'f' then some '\x0c'
  else if c = 'n' then some '\n'
  else if c = 'r' then some '\r'
  else if c = 't' then some '\t'
  else none

/-- What an escape stands for, the backslash being read; `wanted` asks for its value. -/
def escape (wanted : Bool) : Reader Char := fun s =>
  match s with
  | [] => fail .endInString s
  | c :: t =>
    if c = 'u' then
      if wanted then unicodeEscape t
      else match unit t with
        | .error e => .error e
        | .ok (_, u) => .ok (c, u)
    else match shortEscape? c with
      | some d => .ok (d, t)
      | none => failAt 1 .invalidEscape s

theorem length_unit {s t : List Char} {n : Nat} (h : unit s = .ok (n, t)) :
    t.length < s.length := by
  unfold unit at h
  split at h
  · next r hr =>
    unfold hexDigits? at hr
    split at hr
    · simp only [Option.bind_eq_bind, Option.bind_eq_some_iff] at hr
      obtain ⟨_, _, _, _, _, _, _, _, hr⟩ := hr
      obtain rfl := Option.some.inj hr
      obtain ⟨rfl, rfl⟩ := Prod.mk.inj (Except.ok.inj h)
      simp only [List.length_cons]
      omega
    · simp at hr
  · split at h <;> simp [fail, failAt] at h

theorem length_lowUnit {s t : List Char} {n : Nat} (h : lowUnit s = .ok (n, t)) :
    t.length < s.length := by
  unfold lowUnit at h
  repeat' split at h
  all_goals first
    | (simp [fail, failAt] at h; done)
    | (next hu _ =>
        obtain ⟨rfl, rfl⟩ := Prod.mk.inj (Except.ok.inj h)
        have := length_unit hu
        simp only [List.length_cons]
        omega)

theorem length_unicodeEscape {s t : List Char} {c : Char} (h : unicodeEscape s = .ok (c, t)) :
    t.length < s.length := by
  unfold unicodeEscape at h
  split at h
  · simp at h
  · next hu =>
    have hlt := length_unit hu
    repeat' split at h
    · simp [fail, failAt] at h
    · simp at h
    · next hl =>
      obtain ⟨rfl, rfl⟩ := Prod.mk.inj (Except.ok.inj h)
      exact Nat.lt_trans (length_lowUnit hl) hlt
    · obtain ⟨rfl, rfl⟩ := Prod.mk.inj (Except.ok.inj h)
      exact hlt

/-- An escape never gives text back. -/
theorem length_escape {wanted : Bool} {s t : List Char} {c : Char}
    (h : escape wanted s = .ok (c, t)) : t.length < s.length := by
  unfold escape at h
  repeat' split at h
  · simp [fail, failAt] at h
  · have := length_unicodeEscape h
    simp only [List.length_cons]
    omega
  · simp at h
  · next hu =>
    obtain ⟨rfl, rfl⟩ := Prod.mk.inj (Except.ok.inj h)
    have := length_unit hu
    simp only [List.length_cons]
    omega
  · obtain ⟨rfl, rfl⟩ := Prod.mk.inj (Except.ok.inj h)
    simp
  · simp [failAt] at h

/-- The rest of a string behind its opening quote, up to and with the closing one. A bare control is
reported behind it when the value is wanted, and in front of it when not. -/
def body (wanted : Bool) : List Char → Except Fault (List Char × List Char)
  | [] => fail .endInString []
  | c :: s =>
    if c = '"' then .ok ([], s)
    else if c = '\\' then
      match _h : escape wanted s with
      | .error e => .error e
      | .ok (d, t) => (body wanted t).map fun r => (d :: r.1, r.2)
    else if c.toNat < 0x20 then failAt (if wanted then 1 else 0) .controlCharacter (c :: s)
    else (body wanted s).map fun r => (c :: r.1, r.2)
termination_by s => s.length
decreasing_by
  · have := length_escape _h
    simp only [List.length_cons]
    omega
  · simp

/-- The value of a string behind its opening quote. -/
def string : Reader String := fun s => (body true s).map fun r => (String.ofList r.1, r.2)

/-- Passes over the rest of a string. -/
def skipString : Reader Unit := fun s => (body false s).map fun r => ((), r.2)

end DartUnion.Json
