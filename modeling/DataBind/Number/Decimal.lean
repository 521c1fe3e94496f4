/-
**Shortest decimals of doubles, and decimals with fixed places.**

A decimal is `digits · 10 ^ exponent`. The shortest decimal of a double is the one with the fewest
digits among those that are nearer to it than to any other double; of two of the same length the
nearer one, and of two equally near the greater one.

* `nearestOnGrid_admits`: what is chosen on a grid lies in the interval that rounds to the double;
* `roundHalfEven_exact`: a quotient without remainder is rounded to itself.
-/

import DataBind.Number.Binary

namespace DataBind.Number

/-- A decimal number `digits · 10 ^ exponent`. -/
structure Decimal where
  digits : Nat
  exponent : Int
  deriving DecidableEq, Repr

/-- The number of decimal digits; zero has one. -/
def digitCount (n : Nat) : Nat :=
  (Nat.toDigits 10 n).length

/-- The numerator and denominator of `significand · base ^ exponent`. -/
def ratio (base significand : Nat) (exponent : Int) : Nat × Nat :=
  match exponent with
  | .ofNat up => (significand * Nat.pow base up, 1)
  | .negSucc down => (significand, Nat.pow base (down + 1))

/-- The greatest `e` with `10 ^ e ≤ numerator / denominator`. -/
def decimalExponent (numerator denominator : Nat) : Int :=
  if denominator ≤ numerator then (digitCount (numerator / denominator) : Int) - 1
  else -(digitCount ((denominator + numerator - 1) / numerator - 1) : Int)

/-- The positive reals that round to one double, in units of a quarter of its last place. -/
structure Interval where
  low : Nat
  value : Nat
  high : Nat
  /-- Whether the ends belong to the interval. -/
  closed : Bool
  /-- The exponent of two of the unit. -/
  exponent : Int

/-- The reals that round to `significand · 2 ^ exponent`. The neighbour below a power of two is
half as far, unless the exponent is the least one. -/
def Interval.around (significand : Nat) (exponent : Int) : Interval where
  low := 4 * significand - (if significand = leadingBit && exponent != -1074 then 1 else 2)
  value := 4 * significand
  high := 4 * significand + 2
  closed := significand % 2 == 0
  exponent := exponent - 2

/-- Whether the fraction `numerator / denominator` of the unit lies in the interval. -/
def Interval.admits (interval : Interval) (numerator denominator : Nat) : Bool :=
  if interval.closed then
    interval.low * denominator ≤ numerator && numerator ≤ interval.high * denominator
  else interval.low * denominator < numerator && numerator < interval.high * denominator

/-- The multiple of `10 ^ place` that is chosen for an interval: the neighbour of its value that
lies in the interval, of two the nearer one, of two equally near the greater one. -/
def Interval.nearestOnGrid (interval : Interval) (place : Int) : Option Decimal :=
  -- one step of the grid, in units of the interval
  let (unitTop, unitBottom) := ratio 2 1 interval.exponent
  let (stepTop, stepBottom) := ratio 10 1 place
  let top := stepTop * unitBottom
  let bottom := stepBottom * unitTop
  let below := interval.value * bottom / top
  let lowFits := interval.admits (below * top) bottom
  let highFits := interval.admits ((below + 1) * top) bottom
  let lowIsNearer := 2 * (interval.value * bottom) < (2 * below + 1) * top
  if lowFits && (!highFits || lowIsNearer) then some ⟨below, place⟩
  else if highFits then some ⟨below + 1, place⟩
  else none

/-- A decimal without trailing zeros among its digits, dropping at most `count` of them. -/
def Decimal.dropZeros : Nat → Decimal → Decimal
  | 0, decimal => decimal
  | count + 1, ⟨digits, exponent⟩ =>
    if digits % 10 = 0 then dropZeros count ⟨digits / 10, exponent + 1⟩ else ⟨digits, exponent⟩

/-- The shortest decimal that rounds to the positive number `significand · 2 ^ exponent`. -/
def shortest (significand : Nat) (exponent : Int) : Decimal :=
  let interval := Interval.around significand exponent
  let (top, bottom) := ratio 2 significand exponent
  let leading := decimalExponent top bottom
  let found := (List.range 17).findSome? fun (count : Nat) =>
    interval.nearestOnGrid (leading - count)
  match found with
  | some decimal => decimal.dropZeros 17
  | none => ⟨0, 0⟩

/-- The quotient rounded to the nearest integer, a half to the even one. -/
def roundHalfEven (numerator denominator : Nat) : Nat :=
  let whole := numerator / denominator
  let twice := 2 * (numerator % denominator)
  if twice < denominator || (twice == denominator && whole % 2 == 0) then whole else whole + 1

/-- The decimal digits of a number, with zeros in front up to a width. -/
def paddedDigits (width n : Nat) : List Char :=
  let digits := Nat.toDigits 10 n
  List.replicate (width - digits.length) '0' ++ digits

/-- The magnitude `significand · 2 ^ exponent` with a fixed number of decimal places. -/
def fixedPlaces (places significand : Nat) (exponent : Int) : List Char :=
  let (top, bottom) := ratio 2 significand exponent
  let digits := paddedDigits (places + 1) (roundHalfEven (top * Nat.pow 10 places) bottom)
  let (whole, fraction) := digits.splitAt (digits.length - places)
  if places = 0 then whole else whole ++ '.' :: fraction

/-- What is chosen on a grid lies in the interval. -/
theorem Interval.nearestOnGrid_admits {interval : Interval} {place : Int} {decimal : Decimal}
    (chosen : interval.nearestOnGrid place = some decimal) :
    decimal.exponent = place ∧
      interval.admits (decimal.digits * ((ratio 10 1 place).1 * (ratio 2 1 interval.exponent).2))
        ((ratio 10 1 place).2 * (ratio 2 1 interval.exponent).1) = true := by
  unfold Interval.nearestOnGrid at chosen
  simp only at chosen
  split at chosen
  · rename_i low
    simp only [Option.some.injEq] at chosen
    subst chosen
    simp_all
  · simp only [Option.ite_none_right_eq_some, Option.some.injEq] at chosen
    obtain ⟨high, rfl⟩ := chosen
    exact ⟨rfl, high⟩

/-- A quotient without remainder is rounded to itself. -/
theorem roundHalfEven_exact (quotient : Nat) {denominator : Nat} (positive : 0 < denominator) :
    roundHalfEven (quotient * denominator) denominator = quotient := by
  simp [roundHalfEven, Nat.mul_mod_left, Nat.mul_div_cancel _ positive, positive]

end DataBind.Number
