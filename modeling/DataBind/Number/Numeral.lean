/-
**Reading numerals.**

A numeral is an optional sign, digits with an optional point among or around them, and an optional
exponent; the words `inf`, `infinity` and `nan` are read in any case. The double is the one nearest
to the number written. Hexadecimal digits denote natural numbers.

* `nearest_zero`: zero digits denote zero, whatever the exponent;
* `readMagnitude?_nil`: the empty text is no numeral.
-/

import DataBind.Number.Decimal
import DataBind.Text.Case

namespace DataBind.Number

/-- The value of a run of decimal digits, appended to the digits read before. -/
def digitsValue (before : Nat) (digits : List Char) : Nat :=
  digits.foldl (fun value digit => 10 * value + (digit.toNat - '0'.toNat)) before

/-- The leading digits of a text and what follows them. -/
def spanDigits (text : List Char) : List Char × List Char :=
  (text.takeWhile Char.isDigit, text.dropWhile Char.isDigit)

/-- The value of a hexadecimal digit. -/
def hexValue? (c : Char) : Option Nat :=
  if c.isDigit then some (c.toNat - '0'.toNat)
  else if 'a' ≤ c && c ≤ 'f' then some (c.toNat - 'a'.toNat + 10)
  else if 'A' ≤ c && c ≤ 'F' then some (c.toNat - 'A'.toNat + 10)
  else none

/-- The number that hexadecimal digits denote; there has to be a digit, and nothing else. -/
def hexNumber? (digits : List Char) : Option Nat :=
  if digits.isEmpty then none
  else digits.foldlM (fun value c => (hexValue? c).map (16 * value + ·)) 0

/-- The double nearest to `digits · 10 ^ exponent`. Numbers too great for a double are infinite,
and those too small are zero. -/
def nearest (digits : Nat) (exponent : Int) : Float :=
  let magnitude := (digitCount digits : Int) + exponent
  if digits = 0 || magnitude < -330 then 0.0
  else if magnitude > 310 then 1.0 / 0.0
  else Float.ofScientific digits (exponent < 0) exponent.natAbs

/-- An optional sign and what follows it. -/
def takeSign : List Char → Bool × List Char
  | '-' :: rest => (true, rest)
  | '+' :: rest => (false, rest)
  | text => (false, text)

/-- The exponent part of a numeral: nothing, or `e` with a signed run of digits. -/
def readExponent? : List Char → Option Int
  | [] => some 0
  | 'e' :: rest => signedDigits rest
  | 'E' :: rest => signedDigits rest
  | _ => none
where
  /-- A run of digits with an optional sign. -/
  signedDigits (text : List Char) : Option Int :=
    let (negative, digits) := takeSign text
    if digits.isEmpty || !digits.all Char.isDigit then none
    else some (signed negative (digitsValue 0 digits))

/-- The magnitude of a numeral without its sign. -/
def readMagnitude? (text : List Char) : Option Float :=
  let (whole, rest) := spanDigits text
  let (fraction, rest) :=
    match rest with
    | '.' :: after => spanDigits after
    | _ => ([], rest)
  if whole.isEmpty && fraction.isEmpty then none
  else do
    let exponent ← readExponent? rest
    return nearest (digitsValue (digitsValue 0 whole) fraction) (exponent - fraction.length)

/-- The double that a numeral denotes. -/
def readNumber? (text : List Char) : Option Float :=
  let (negative, rest) := takeSign text
  let word := String.ofList (Text.asciiLower rest)
  let magnitude :=
    if word = "inf" || word = "infinity" then some (1.0 / 0.0)
    else if word = "nan" then some (0.0 / 0.0)
    else readMagnitude? rest
  magnitude.map fun value => if negative then -value else value

/-- Zero digits denote zero. -/
theorem nearest_zero (exponent : Int) : nearest 0 exponent = 0.0 := by
  simp [nearest]

theorem readMagnitude?_nil : readMagnitude? [] = none := rfl

end DataBind.Number
