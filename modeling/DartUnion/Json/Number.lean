import DartUnion.Decimal.Shortest
import DartUnion.Json.Reader

/-!
# Numbers of JSON text

No field of a model is a number, so a number is read only to be shown in a message or to be passed
over. Shown numbers are 64-bit integers where they fit and doubles otherwise. The double is the
significand times or divided by a power of ten, in one floating-point operation; the significand is
as many digits as fit in 64 bits, the digits of an integer that do not fit count as zeros, and
decimals that do not fit count as nothing.

* `number` reads a number that is shown, `skipNumber` passes over one.
* `floatText` shows a double: the shortest digits that read back, positional for leading exponents
  from -5 to 15 and always with a point, otherwise with a signed exponent of two digits or more.
-/

namespace DartUnion.Json

open DartUnion.Decimal

/-! ## Doubles in messages -/

/-- Digits with a point behind the first `whole` of them. -/
def pointed (digits : List Char) (whole : Nat) : List Char :=
  digits.take whole ++ List.replicate (whole - digits.length) '0' ++ '.' ::
    (if digits.length ≤ whole then ['0'] else digits.drop whole)

/-- The digits of a positive double with the exponent of the first one, as text. -/
def Decimal.text (d : Digits) : List Char :=
  if 0 ≤ d.leading && d.leading ≤ 15 then pointed d.digits (d.leading.toNat + 1)
  else if -5 ≤ d.leading && d.leading < 0 then
    ['0', '.'] ++ List.replicate (-d.leading - 1).toNat '0' ++ d.digits
  else
    let mantissa := match d.digits with
      | [c] => [c]
      | cs => cs.take 1 ++ '.' :: cs.drop 1
    let e := Nat.toDigits 10 d.leading.natAbs
    mantissa ++ 'e' :: (if d.leading < 0 then '-' else '+') ::
      (if e.length < 2 then '0' :: e else e)

/-- A finite double as text. -/
def floatText (x : Float) : String :=
  let sign := if x.toBits.toNat / Nat.pow 2 63 = 1 then ['-'] else []
  let magnitude := match Double.ofFloat x with
    | none => ['0', '.', '0']
    | some d => Decimal.text d.shortest
  String.ofList (sign ++ magnitude)

/-! ## The value of a number -/

/-- The greatest 64-bit integer. -/
def maxWord : Nat := Nat.pow 2 64 - 1

/-- The value of a decimal digit. -/
def digit (c : Char) : Nat := c.toNat - '0'.toNat

/-- Appends digits to a significand while it fits in 64 bits; gives the digits that are left. -/
def absorb (significand : Nat) : List Char → Nat × List Char
  | [] => (significand, [])
  | c :: s =>
    let next := significand * 10 + digit c
    if next ≤ maxWord then absorb next s else (significand, c :: s)

/-- A power of ten as a double. -/
def powerOfTen (n : Nat) : Float := Float.ofScientific 1 false n

/-- The double for `x * 10 ^ e`, unless it is too large. Exponents below the range are reached in
steps, of which `fuel` are allowed; after three the value is zero. -/
def scale : (fuel : Nat) → Float → Int → Option Float
  | 0, _, _ => some 0
  | fuel + 1, x, e =>
    if e.natAbs ≤ 308 then
      if 0 ≤ e then
        let y := x * powerOfTen e.natAbs
        if y.isInf then none else some y
      else some (x / powerOfTen e.natAbs)
    else if x == 0 then some x
    else if 0 ≤ e then none
    else scale fuel (x / powerOfTen 308) (e + 308)

/-- The double of a number read as a significand and an exponent. -/
def float (negative : Bool) (significand : Nat) (e : Int) : Reader Found := fun s =>
  match scale 4 significand.toUInt64.toFloat e with
  | some x => .ok (.float (floatText (if negative then -x else x)), s)
  | none => fail .numberOutOfRange s

/-! ## Reading -/

/-- The digits in front, and the text behind them. -/
def digits (s : List Char) : List Char × List Char :=
  (s.takeWhile Char.isDigit, s.dropWhile Char.isDigit)

/-- The largest exponent that is kept. -/
def maxExponent : Nat := Nat.pow 2 31 - 1

/-- An exponent of so many digits that it is too large to keep: the text behind the digit with which
it becomes so. -/
def overflow? (value : Nat) : List Char → Option (List Char)
  | [] => none
  | c :: s =>
    let next := value * 10 + digit c
    if next ≤ maxExponent then overflow? next s else some s

/-- An exponent moved by the sign and digits that were written, as far as it can be kept. -/
def shifted (e : Int) (negative : Bool) (amount : Nat) : Int :=
  if negative then max (e - amount) (-maxExponent - 1) else min (e + amount) maxExponent

/-- The number whose exponent follows, its mark being next. -/
def exponent (negative : Bool) (significand : Nat) (e : Int) : Reader Found := fun s =>
  let s := s.tail
  let down := s.head? == some '-'
  let s := if down || s.head? == some '+' then s.tail else s
  match s with
  | [] => fail .endInValue s
  | c :: _ =>
    if !c.isDigit then failAt 1 .invalidNumber s
    else
      let (ds, rest) := digits s
      match overflow? 0 ds with
      | none => float negative significand (shifted e down (absorb 0 ds).1) rest
      | some left =>
        if significand != 0 && !down then fail .numberOutOfRange (left ++ rest)
        else .ok (.float (if negative then "-0.0" else "0.0"), rest)

/-- A letter that starts an exponent is next. -/
def atExponent (s : List Char) : Bool := s.head? == some 'e' || s.head? == some 'E'

/-- The number whose decimals follow, the point being next. -/
def decimals (negative : Bool) (significand : Nat) (e : Int) : Reader Found := fun s =>
  let (ds, rest) := digits s.tail
  match ds, rest with
  | [], [] => failAhead .endInValue rest
  | [], _ => failAhead .invalidNumber rest
  | _, _ =>
    let (significand, left) := absorb significand ds
    let e := e - (ds.length - left.length : Nat)
    if atExponent rest then exponent negative significand e rest
    else float negative significand e rest

/-- What follows the integral digits of a number, of which `excess` did not fit. -/
def fraction (negative : Bool) (significand excess : Nat) : Reader Found := fun s =>
  if s.head? == some '.' then decimals negative significand excess s
  else if atExponent s then exponent negative significand excess s
  else if excess != 0 then float negative significand excess s
  else if negative then
    if significand = 0 || Nat.pow 2 63 < significand then
      .ok (.float (floatText (-significand.toUInt64.toFloat)), s)
    else .ok (.integer (-significand), s)
  else .ok (.integer significand, s)

/-- A number behind its sign. -/
def number (negative : Bool) : Reader Found := fun s =>
  match s with
  | [] => fail .endInValue s
  | c :: t =>
    if !c.isDigit then failAt 1 .invalidNumber s
    else if c = '0' then
      if t.head?.any Char.isDigit then failAhead .invalidNumber t else fraction negative 0 0 t
    else
      let (ds, rest) := digits s
      let (significand, left) := absorb 0 ds
      fraction negative significand left.length rest

/-! ## Passing over a number -/

/-- Passes over an exponent, its mark being next. -/
def skipExponent : Reader Unit := fun s =>
  let s := s.tail
  let s := if s.head? == some '-' || s.head? == some '+' then s.tail else s
  if s.head?.any Char.isDigit then .ok ((), (digits s).2) else failAt 1 .invalidNumber s

/-- Passes over decimals and an exponent. -/
def skipFraction : Reader Unit := fun s =>
  if s.head? == some '.' then
    let (ds, rest) := digits s.tail
    if ds.isEmpty then failAhead .invalidNumber rest
    else if atExponent rest then skipExponent rest
    else .ok ((), rest)
  else if atExponent s then skipExponent s
  else .ok ((), s)

/-- Passes over a number behind its sign. -/
def skipNumber : Reader Unit := fun s =>
  match s with
  | [] => failAt 1 .invalidNumber s
  | c :: t =>
    if !c.isDigit then failAt 1 .invalidNumber s
    else if c = '0' then
      if t.head?.any Char.isDigit then failAhead .invalidNumber t else skipFraction t
    else skipFraction (digits s).2

end DartUnion.Json
