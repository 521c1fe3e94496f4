/-
**Properties and methods of values.**

What `base.key` and `base[key]` give, and the methods that texts, arrays, numbers and booleans have
of their own. Positions in texts count characters, while `length` counts 16-bit units.

* `clampIndex_le`: a clamped index never exceeds the length.
-/

import DataBind.Expr.Source
import DataBind.Text.Case
import DataBind.Text.Search
import DataBind.Value.Equality

namespace DataBind

/-- An evaluation, which may fail, and which gives new arrays and objects the next free
identity. -/
abbrev Evaluation (α : Type) : Type :=
  StateT Nat (Except EvalError) α

namespace Evaluation

/-- An identity that no value has yet. -/
def fresh : Evaluation Nat :=
  fun next => .ok (next, next + 1)

/-- A new array. -/
def newArray (items : List Value) : Evaluation Value := do
  return .array (← fresh) items

/-- A new object; of entries with the same key the last one counts. -/
def newObject (pairs : List (String × Value)) : Evaluation Value := do
  return .object (← fresh) (Entries.ofList pairs)

end Evaluation

namespace Builtin

/-- The index of an element that a key denotes: a number, or the text of one. -/
def elementIndex? : Value → Option Nat
  | .number amount => Number.naturalIndex? amount
  | .string text => (Number.readNumber? text.toList).bind Number.naturalIndex?
  | _ => none

/-- A text of one character. -/
def ofCharacter (c : Char) : Value :=
  .string (String.singleton c)

/-- Whether a key is the text `length`. -/
def isLength : Value → Bool
  | .string text => text == "length"
  | _ => false

/-- The property of a value under a key; methods are not among the properties. -/
def property (base key : Value) : Except EvalError Value :=
  match base with
  | .undefined => .error (.nullishAccess key.toText "undefined")
  | .null => .error (.nullishAccess key.toText "null")
  | .object _ entries => .ok ((entries.lookup key.toText).getD .undefined)
  | .array _ items =>
    if isLength key then .ok (.ofNat items.length)
    else .ok (((elementIndex? key).bind fun index => items[index]?).getD .undefined)
  | .string text =>
    if isLength key then .ok (.ofNat (Text.unitLength text.toList))
    else
      .ok ((((elementIndex? key).bind fun index => text.toList[index]?).map ofCharacter).getD
        .undefined)
  | .bool _ | .number _ | .function .. => .ok .undefined

/-- The argument at a position, undefined where there is none. -/
def argument (arguments : List Value) (position : Nat) : Value :=
  (arguments[position]?).getD .undefined

/-- A number as a position between zero and a length. A negative one counts from the end, if
`fromEnd` says so. -/
def clampIndex (amount : Float) (length : Nat) (fromEnd : Bool) : Nat :=
  match Number.truncated amount with
  | .nan => 0
  | .infinite negative => if negative then 0 else length
  | .integer (.ofNat position) => min position length
  | .integer (.negSucc below) => if fromEnd then length - (below + 1) else 0

/-- The range that two arguments denote; a missing second one stands for the length. -/
def range (arguments : List Value) (length : Nat) (fromEnd : Bool) : Nat × Nat :=
  let first := clampIndex (argument arguments 0).toNumber length fromEnd
  let second :=
    match argument arguments 1 with
    | .undefined => length
    | value => clampIndex value.toNumber length fromEnd
  (first, second)

/-- The elements of a list from one position to before another. -/
def slice {α : Type} (items : List α) (first last : Nat) : List α :=
  (items.drop first).take (last - first)

/-- A position found by a search, or -1. -/
def foundAt : Option Nat → Value
  | some position => .ofNat position
  | none => .number (-1.0)

/-- The character at a position, as `charAt` counts: what is no number counts as zero, and outside
of the text there is nothing. -/
def characterAt (text : List Char) (position : Float) : String :=
  if position < 0.0 then ""
  else
    match Number.truncated position with
    | .nan => String.ofList (text.take 1)
    | .integer (.ofNat index) => String.ofList ((text.drop index).take 1)
    | _ => ""

/-- The methods of texts. -/
def stringMethod? (text : String) (name : String) (arguments : List Value) :
    Option (Evaluation Value) :=
  let characters := text.toList
  match name with
  | "toUpperCase" => some (pure (.string (String.ofList (Text.upperCase characters))))
  | "toLowerCase" => some (pure (.string (String.ofList (Text.lowerCase characters))))
  | "trim" => some (pure (.string (Text.trimmed text)))
  | "toString" => some (pure (.string text))
  | "indexOf" =>
    let needle := (argument arguments 0).toText.toList
    some (pure (foundAt (Text.indexOf? needle characters)))
  | "charAt" =>
    some (pure (.string (characterAt characters (argument arguments 0).toNumber)))
  | "substring" =>
    let (first, second) := range arguments characters.length false
    some (pure (.string (String.ofList (slice characters (min first second) (max first second)))))
  | "split" =>
    match argument arguments 0 with
    | .undefined => some (Evaluation.newArray [.string text])
    | separator =>
      let needle := separator.toText.toList
      if needle.isEmpty then some (Evaluation.newArray (characters.map ofCharacter))
      else
        some (Evaluation.newArray
          ((Text.pieces needle characters).map fun piece => .string (String.ofList piece)))
  | _ => none

/-- The methods of arrays. -/
def arrayMethod? (items : List Value) (name : String) (arguments : List Value) :
    Option (Evaluation Value) :=
  match name with
  | "join" =>
    let separator :=
      match argument arguments 0 with
      | .undefined => ","
      | value => value.toText
    some (pure (.string (separator.intercalate (Value.itemTexts items))))
  | "toString" => some (pure (.string (",".intercalate (Value.itemTexts items))))
  | "indexOf" =>
    let wanted := argument arguments 0
    some (pure (foundAt (items.findIdx? fun item => item.strictEq wanted)))
  | "slice" =>
    let (first, last) := range arguments items.length true
    some (Evaluation.newArray (slice items first last))
  | _ => none

/-- The number of decimal places that a value asks for: at most a hundred. -/
def places (value : Value) : Nat :=
  clampIndex value.toNumber 100 false

/-- The methods of numbers. -/
def numberMethod? (amount : Float) (name : String) (arguments : List Value) :
    Option (Evaluation Value) :=
  match name with
  | "toString" => some (pure (.string (Number.display amount)))
  | "toFixed" => some (pure (.string (Number.displayFixed (places (argument arguments 0)) amount)))
  | _ => none

/-- The methods that a value has by its type. -/
def method? (this : Value) (name : String) (arguments : List Value) : Option (Evaluation Value) :=
  match this with
  | .string text => stringMethod? text name arguments
  | .array _ items => arrayMethod? items name arguments
  | .number amount => numberMethod? amount name arguments
  | .bool flag => if name = "toString" then some (pure (.string (Value.bool flag).toText)) else none
  | _ => none

/-- A clamped index never exceeds the length. -/
theorem clampIndex_le (amount : Float) (length : Nat) (fromEnd : Bool) :
    clampIndex amount length fromEnd ≤ length := by
  unfold clampIndex
  split
  · omega
  · split <;> omega
  · omega
  · split <;> omega

end Builtin

end DataBind
