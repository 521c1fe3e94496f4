/-
**JSON documents.**

Numbers keep the digits they were written with, and objects their members in the order written,
repeated names included.

* `Numeral.fill_nil`: without digits the significand stays as it is.
-/

import DataBind.Value.Basic

namespace DataBind.Json

/-- A JSON number as written: sign, digits before and after the point, and exponent. -/
structure Numeral where
  negative : Bool
  whole : List Char
  fraction : List Char
  exponent : Int

/-- A JSON document. -/
inductive Document where
  | null
  | bool (flag : Bool)
  | number (numeral : Numeral)
  | string (text : String)
  | array (items : List Document)
  | object (members : List (String × Document))

namespace Numeral

/-- A magnitude with the sign of a numeral. -/
def withSign (numeral : Numeral) (magnitude : Float) : Float :=
  if numeral.negative then -magnitude else magnitude

/-- The double nearest to the number written. -/
def nearest (numeral : Numeral) : Float :=
  let digits := Number.digitsValue (Number.digitsValue 0 numeral.whole) numeral.fraction
  numeral.withSign (Number.nearest digits (numeral.exponent - numeral.fraction.length))

/-- Takes decimal digits into a significand of 64 bits, as long as they fit, and gives the digits
left over. -/
def fill (significand : Nat) : List Char → Nat × List Char
  | [] => (significand, [])
  | digit :: rest =>
    let next := Number.digitsValue significand [digit]
    if next < 1 <<< 64 then fill next rest else (significand, digit :: rest)

theorem fill_nil (significand : Nat) : fill significand [] = (significand, []) := rfl

/-- A double times a power of ten, by steps of at most `10 ^ 308`; nothing if it gets infinite. -/
def scaleByTen (magnitude : Float) (exponent : Int) : Option Float :=
  if 0 ≤ exponent then
    if magnitude == 0.0 then some magnitude
    else if exponent ≤ 308 then
      let result := magnitude * Float.ofScientific 1 false exponent.natAbs
      if result.isInf then none else some result
    else none
  else if -308 ≤ exponent then some (magnitude / Float.ofScientific 1 false exponent.natAbs)
  else if magnitude == 0.0 then some magnitude
  else scaleByTen (magnitude / Float.ofScientific 1 false 308) (exponent + 308)
termination_by exponent.natAbs
decreasing_by omega

/-- The double of a numeral read with a significand of 64 bits: further digits of the fraction are
dropped, and the significand is scaled by a power of ten in double arithmetic. Nothing if the
result is not finite. -/
def scaled? (numeral : Numeral) : Option Float :=
  let (significand, dropped) := fill 0 numeral.whole
  let (significand, unread) := fill significand numeral.fraction
  let kept : Int := numeral.fraction.length - unread.length
  let exponent := numeral.exponent + dropped.length - kept
  (scaleByTen (Float.ofNat significand) exponent).map numeral.withSign

end Numeral

namespace Document

mutual

/-- The value of a document, given how numerals are read. Arrays and objects get the identities
from `fresh` on; the next free one is returned with the value. -/
def toValue? (read : Numeral → Option Float) (fresh : Nat) : Document → Option (Value × Nat)
  | .null => some (.null, fresh)
  | .bool flag => some (.bool flag, fresh)
  | .number numeral => (read numeral).map fun amount => (.number amount, fresh)
  | .string text => some (.string text, fresh)
  | .array items => do
    let (values, next) ← itemValues? read fresh items
    return (.array next values, next + 1)
  | .object members => do
    let (entries, next) ← memberValues? read fresh members
    return (.object next (Entries.ofList entries), next + 1)

/-- The values of a list of documents. -/
def itemValues? (read : Numeral → Option Float) (fresh : Nat) :
    List Document → Option (List Value × Nat)
  | [] => some ([], fresh)
  | item :: rest => do
    let (value, next) ← toValue? read fresh item
    let (values, last) ← itemValues? read next rest
    return (value :: values, last)

/-- The values of a list of members. -/
def memberValues? (read : Numeral → Option Float) (fresh : Nat) :
    List (String × Document) → Option (List (String × Value) × Nat)
  | [] => some ([], fresh)
  | (name, member) :: rest => do
    let (value, next) ← toValue? read fresh member
    let (values, last) ← memberValues? read next rest
    return ((name, value) :: values, last)

end

/-- The last member of an object with a name. -/
def member? (name : String) : Document → Option Document
  | .object members => members.reverse.lookup name
  | _ => none

end Document

end DataBind.Json
