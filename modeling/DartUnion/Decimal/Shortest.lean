/-!
# The shortest decimal of a double

A finite double stands for all reals that round to it. Its shortest decimal is the one with the
fewest digits among those, and the nearest of these to the double itself. For each count of digits
only the two neighbours of the double on that decimal grid can do, so counts are tried upwards;
seventeen digits always do. All of it is arithmetic on natural numbers.

* `Double.ofFloat`: a double as `significand * 2 ^ exponent`.
* `Double.shortest`: its digits and the exponent of the leading one.
-/

namespace DartUnion.Decimal

/-- A finite, positive double. -/
structure Double where
  significand : Nat
  exponent : Int
  /-- The double below is nearer than the one above: the significand is the least of its binade. -/
  narrowBelow : Bool
  deriving Repr, DecidableEq

/-- The magnitude of a finite float; `none` for zero. -/
def Double.ofFloat (x : Float) : Option Double :=
  let bits := x.toBits.toNat % Nat.pow 2 63
  let fraction := bits % Nat.pow 2 52
  let biased : Nat := bits / Nat.pow 2 52
  if bits = 0 then none
  else if biased = 0 then some ⟨fraction, -1074, false⟩
  else some ⟨fraction + Nat.pow 2 52, (biased : Int) - 1075, fraction == 0 && biased > 1⟩

/-- A non-negative rational. -/
structure Ratio where
  num : Nat
  den : Nat

/-- `n * b ^ e` for a base `b`. -/
def Ratio.ofPower (n b : Nat) (e : Int) : Ratio :=
  if 0 ≤ e then ⟨n * Nat.pow b e.toNat, 1⟩ else ⟨n, Nat.pow b (-e).toNat⟩

/-- Comparison of rationals. -/
def Ratio.le (x y : Ratio) : Bool := x.num * y.den ≤ y.num * x.den

/-- Comparison of rationals. -/
def Ratio.lt (x y : Ratio) : Bool := x.num * y.den < y.num * x.den

/-- A rational divided by a power of ten, rounded down. -/
def Ratio.onGrid (x : Ratio) (e : Int) : Nat :=
  if 0 ≤ e then x.num / (x.den * Nat.pow 10 e.toNat) else x.num * Nat.pow 10 (-e).toNat / x.den

/-- The greatest exponent at or above `e` whose power of ten is not above `x`, within `fuel` steps. -/
def Ratio.leadingFrom (x : Ratio) : (fuel : Nat) → Int → Int
  | 0, e => e
  | fuel + 1, e => if (Ratio.ofPower 1 10 (e + 1)).le x then x.leadingFrom fuel (e + 1) else e

/-- Four times the double, and four times the ends of the interval that rounds to it. -/
def Double.interval (d : Double) : Ratio × Ratio × Ratio :=
  let scaled (n : Nat) := Ratio.ofPower n 2 d.exponent
  (scaled (4 * d.significand - if d.narrowBelow then 1 else 2), scaled (4 * d.significand),
    scaled (4 * d.significand + 2))

/-- The grid point `n * 10 ^ e` rounds to the double; the ends do when the significand is even. -/
def Double.accepts (d : Double) (n : Nat) (e : Int) : Bool :=
  let (low, _, high) := d.interval
  let point := Ratio.ofPower (4 * n) 10 e
  if d.significand % 2 = 0 then low.le point && point.le high else low.lt point && point.lt high

/-- The lower of two neighbours on a grid is nearer to the double than the upper one; between two
equally near ones it is the even one. -/
def Double.nearerBelow (d : Double) (n : Nat) (e : Int) : Bool :=
  let (_, middle, _) := d.interval
  let half := Ratio.ofPower (4 * n + 2) 10 e
  middle.lt half || (middle.le half && n % 2 == 0)

/-- A digit string and the exponent of its first digit. -/
structure Digits where
  digits : List Char
  leading : Int
  deriving Repr, DecidableEq

/-- The digits of `n * 10 ^ e`, without zeros at the end. -/
def Digits.ofGrid (n : Nat) (e : Int) : Digits :=
  let all := Nat.toDigits 10 n
  let kept := (all.reverse.dropWhile (· == '0')).reverse
  ⟨if kept.isEmpty then ['0'] else kept, e + all.length - 1⟩

/-- The shortest decimal of at least so many digits, `more` counts being tried. -/
def Double.shortestFrom (d : Double) (leading : Int) : (more count : Nat) → Digits
  | 0, count =>
    let e := leading + 1 - count
    .ofGrid ((Ratio.ofPower d.significand 2 d.exponent).onGrid e) e
  | more + 1, count =>
    let e := leading + 1 - count
    let below := (Ratio.ofPower d.significand 2 d.exponent).onGrid e
    let lower := d.accepts below e
    let upper := d.accepts (below + 1) e
    if lower && (!upper || d.nearerBelow below e) then .ofGrid below e
    else if upper then .ofGrid (below + 1) e
    else d.shortestFrom leading more (count + 1)

/-- The shortest decimal of a double. -/
def Double.shortest (d : Double) : Digits :=
  let value := Ratio.ofPower d.significand 2 d.exponent
  d.shortestFrom (value.leadingFrom 640 (-330)) 18 1

end DartUnion.Decimal
