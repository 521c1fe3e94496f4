/-
**How numbers are written.**

Integers below `10 ^ 21` are written out in full, other numbers of a middling size as their
shortest decimal, and very large or small ones with a signed exponent. Zero has no sign.

* `display_nan`: the word for no number is `NaN`.
-/

import DataBind.Number.Decimal

namespace DataBind.Number

/-- The digits of a decimal with the point after the first one, and the exponent. -/
def scientific (decimal : Decimal) : List Char :=
  let digits := Nat.toDigits 10 decimal.digits
  let exponent := decimal.exponent + (digits.length - 1 : Nat)
  let mantissa :=
    match digits with
    | [] => []
    | [digit] => [digit]
    | digit :: fraction => digit :: '.' :: fraction
  let mark := if exponent < 0 then ['e', '-'] else ['e', '+']
  mantissa ++ mark ++ Nat.toDigits 10 exponent.natAbs

/-- The digits of a decimal with the point where its exponent puts it. -/
def positional (decimal : Decimal) : List Char :=
  match decimal.exponent with
  | .ofNat up => Nat.toDigits 10 decimal.digits ++ List.replicate up '0'
  | .negSucc down =>
    let places := down + 1
    let digits := paddedDigits (places + 1) decimal.digits
    let (whole, fraction) := digits.splitAt (digits.length - places)
    whole ++ '.' :: fraction

/-- Whether `significand · 2 ^ exponent` is at least `10 ^ 21`. -/
def isHuge (significand : Nat) (exponent : Int) : Bool :=
  let (top, bottom) := ratio 2 significand exponent
  Nat.pow 10 21 * bottom ≤ top

/-- The text of the magnitude `significand · 2 ^ exponent`. -/
def magnitudeText (significand : Nat) (exponent : Int) (isTiny : Bool) : List Char :=
  if isHuge significand exponent || isTiny then scientific (shortest significand exponent)
  else if isWhole significand exponent then Nat.toDigits 10 (scaled significand exponent)
  else positional (shortest significand exponent)

/-- The text of a number. A number below the double nearest to `10 ^ -6` is written with an
exponent. -/
def display (x : Float) : String :=
  match parts x with
  | .nan => "NaN"
  | .infinite negative => if negative then "-Infinity" else "Infinity"
  | .finite negative significand exponent =>
    if significand = 0 then "0"
    else
      let text := magnitudeText significand exponent (x.abs < 1e-6)
      String.ofList (if negative then '-' :: text else text)

/-- The text of a number with a fixed number of decimal places. -/
def displayFixed (places : Nat) (x : Float) : String :=
  match parts x with
  | .nan => "NaN"
  | .infinite negative => if negative then "-inf" else "inf"
  | .finite negative significand exponent =>
    let text := fixedPlaces places significand exponent
    String.ofList (if negative then '-' :: text else text)

/-- What is no number is written `NaN`. -/
theorem display_nan {x : Float} (none : parts x = .nan) : display x = "NaN" := by
  simp [display, none]

end DataBind.Number
