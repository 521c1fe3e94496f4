/-
**Values that templates are rendered against.**

Arrays, objects and functions carry an identity, a number that tells apart what is equal by
contents only. An object's entries are sorted by key and no key occurs twice.

* `Entries.lookup_insert_self`: what is inserted under a key is found under it;
* `isTruthy_of_isNullish`: undefined and null are not truthy.
-/

import DataBind.Number.Display
import DataBind.Number.Numeral
import DataBind.Text.Blank

namespace DataBind

/-- A value of a template's data. -/
inductive Value where
  | undefined
  | null
  | bool (flag : Bool)
  | number (amount : Float)
  | string (text : String)
  | array (identity : Nat) (items : List Value)
  | object (identity : Nat) (entries : List (String × Value))
  /-- A function of the host program, known by its name. -/
  | function (identity : Nat) (name : String)

namespace Value

instance : Inhabited Value := ⟨.undefined⟩

/-- Undefined or null. -/
def isNullish : Value → Bool
  | .undefined | .null => true
  | _ => false

/-- Whether a value counts as true in a condition. -/
def isTruthy : Value → Bool
  | .undefined | .null => false
  | .bool flag => flag
  | .number amount => !(amount == 0.0 || amount.isNaN)
  | .string text => text != ""
  | .array .. | .object .. | .function .. => true

/-- The name of a value's type. -/
def typeName : Value → String
  | .undefined => "undefined"
  | .null | .array .. | .object .. => "object"
  | .bool _ => "boolean"
  | .number _ => "number"
  | .string _ => "string"
  | .function .. => "function"

/-- The value of an object's own property. -/
def property? (key : String) : Value → Option Value
  | .object _ entries => entries.lookup key
  | _ => none

mutual

/-- The text of a value, as concatenation shows it. -/
def toText : Value → String
  | .undefined => "undefined"
  | .null => "null"
  | .bool flag => if flag then "true" else "false"
  | .number amount => Number.display amount
  | .string text => text
  | .array _ items => ",".intercalate (itemTexts items)
  | .object .. => "[object Object]"
  | .function _ name => "function " ++ name ++ "() \x7b [native code] \x7d"

/-- The texts of an array's items, of which undefined and null show nothing. -/
def itemTexts : List Value → List String
  | [] => []
  | item :: rest => (if item.isNullish then "" else item.toText) :: itemTexts rest

end

/-- The number that a text denotes, apart from white space around it; the empty text is zero. -/
def textNumber (text : String) : Float :=
  let inner := Text.trim text.toList
  if inner.isEmpty then 0.0 else (Number.readNumber? inner).getD (0.0 / 0.0)

/-- The number that a value counts as in arithmetic. -/
def toNumber : Value → Float
  | .undefined => 0.0 / 0.0
  | .null => 0.0
  | .bool flag => if flag then 1.0 else 0.0
  | .number amount => amount
  | .string text => textNumber text
  | .array identity items => textNumber (toText (.array identity items))
  | .object .. | .function .. => 0.0 / 0.0

mutual

/-- A number greater than every identity in a value. -/
def identityBound : Value → Nat
  | .array identity items => max (identity + 1) (itemsBound items)
  | .object identity entries => max (identity + 1) (entriesBound entries)
  | .function identity _ => identity + 1
  | _ => 0

/-- A number greater than every identity in a list of items. -/
def itemsBound : List Value → Nat
  | [] => 0
  | item :: rest => max item.identityBound (itemsBound rest)

/-- A number greater than every identity in a list of entries. -/
def entriesBound : List (String × Value) → Nat
  | [] => 0
  | (_, value) :: rest => max value.identityBound (entriesBound rest)

end

/-- A count as a number. -/
def ofNat (count : Nat) : Value :=
  .number (Float.ofNat count)

/-- Undefined and null are not truthy. -/
theorem isTruthy_of_isNullish {value : Value} (nullish : value.isNullish = true) :
    value.isTruthy = false := by
  cases value <;> simp_all [isNullish, isTruthy]

end Value

/-! ### The entries of objects -/

namespace Entries

/-- Entries sorted by key, with a value set under a key. -/
def insert (key : String) (value : Value) : List (String × Value) → List (String × Value)
  | [] => [(key, value)]
  | (other, kept) :: rest =>
    if key < other then (key, value) :: (other, kept) :: rest
    else if key = other then (key, value) :: rest
    else (other, kept) :: insert key value rest

/-- The entries given by a list of pairs, of which later ones replace earlier ones of the same
key. -/
def ofList (pairs : List (String × Value)) : List (String × Value) :=
  pairs.foldl (fun entries (key, value) => insert key value entries) []

/-- What is inserted under a key is found under it. -/
theorem lookup_insert_self (key : String) (value : Value) (entries : List (String × Value)) :
    (insert key value entries).lookup key = some value := by
  induction entries with
  | nil => simp [insert]
  | cons entry rest ih =>
    obtain ⟨other, kept⟩ := entry
    unfold insert
    split
    · simp
    · split
      · simp
      · rename_i different
        simp [List.lookup_cons, beq_false_of_ne different, ih]

/-- Inserting under one key keeps what is found under another. -/
theorem lookup_insert_ne {key other : String} (value : Value) (entries : List (String × Value))
    (different : other ≠ key) :
    (insert key value entries).lookup other = entries.lookup other := by
  induction entries with
  | nil => simp [insert, List.lookup_cons, beq_false_of_ne different]
  | cons entry rest ih =>
    obtain ⟨first, kept⟩ := entry
    unfold insert
    split
    · simp [List.lookup_cons, beq_false_of_ne different]
    · split
      · rename_i same
        subst same
        simp [List.lookup_cons, beq_false_of_ne different]
      · simp [List.lookup_cons, ih]

end Entries

end DataBind
