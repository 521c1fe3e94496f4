/-
**Equality of values.**

Three relations: strict equality compares arrays, objects and functions by identity; loose
equality converts booleans, texts and compound values before it compares; equality of contents
looks into arrays and objects.

* `looseEq_nullish`: undefined and null are loosely equal to each other and to nothing else;
* `strictEq_array`: arrays are strictly equal exactly when their identities are.
-/

import DataBind.Value.Basic

namespace DataBind.Value

/-- Strict equality: the same type, and the same value or the same identity. -/
def strictEq : Value → Value → Bool
  | .undefined, .undefined => true
  | .null, .null => true
  | .bool first, .bool second => first == second
  | .number first, .number second => first == second
  | .string first, .string second => first == second
  | .array first _, .array second _ => first == second
  | .object first _, .object second _ => first == second
  | .function first _, .function second _ => first == second
  | _, _ => false

/-- Arrays, objects and functions. -/
def isCompound : Value → Bool
  | .array .. | .object .. | .function .. => true
  | _ => false

/-- A boolean as the number it counts as; other values as they are. -/
def withoutBool : Value → Value
  | .bool flag => .number (if flag then 1.0 else 0.0)
  | value => value

/-- A compound value as its text; other values as they are. -/
def withoutCompound (value : Value) : Value :=
  if value.isCompound then .string value.toText else value

/-- Loose equality of numbers and texts: two texts are compared as texts, all else as numbers. -/
def looseEqPlain : Value → Value → Bool
  | .string first, .string second => first == second
  | first, second => first.toNumber == second.toNumber

/-- Loose equality. -/
def looseEq (first second : Value) : Bool :=
  if first.isNullish || second.isNullish then first.isNullish && second.isNullish
  else
    let first := first.withoutBool
    let second := second.withoutBool
    if first.isCompound && second.isCompound then first.strictEq second
    else looseEqPlain first.withoutCompound second.withoutCompound

mutual

/-- Equality of contents: arrays and objects are compared item by item, all else strictly. -/
def sameContents : Value → Value → Bool
  | .array _ first, .array _ second => sameItems first second
  | .object _ first, .object _ second => sameEntries first second
  | first, second => first.strictEq second

/-- Equality of the contents of two lists of items. -/
def sameItems : List Value → List Value → Bool
  | [], [] => true
  | first :: others, second :: rest => sameContents first second && sameItems others rest
  | _, _ => false

/-- Equality of the keys and the contents of two lists of entries. -/
def sameEntries : List (String × Value) → List (String × Value) → Bool
  | [], [] => true
  | (key, first) :: others, (other, second) :: rest =>
    key == other && sameContents first second && sameEntries others rest
  | _, _ => false

end

/-- Undefined and null are loosely equal to each other and to nothing else. -/
theorem looseEq_nullish {first : Value} (second : Value) (nullish : first.isNullish = true) :
    looseEq first second = second.isNullish := by
  simp [looseEq, nullish]

/-- Two arrays are strictly equal exactly when their identities are. -/
theorem strictEq_array (first second : Nat) (items others : List Value) :
    strictEq (.array first items) (.array second others) = true ↔ first = second := by
  simp [strictEq]

end DataBind.Value
