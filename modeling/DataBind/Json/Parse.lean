/-
**Reading JSON text.**

The strict grammar of JSON: no comments, no trailing commas, no control characters in strings, and
no surrogate without its partner. Arrays and objects may nest to a depth of 127.

* `parse?_empty`: the empty text is no document.
-/

import DataBind.Json.Basic
import DataBind.Text.Taken

namespace DataBind.Json

open DataBind.Text

/-- The white space between the tokens of a document. -/
def isSpace (c : Char) : Bool :=
  c == ' ' || c == '\t' || c == '\n' || c == '\r'

/-- Takes the first character that is not white space. -/
def nextVisible? : (text : List Char) → Option (Taken Char Char text.length)
  | [] => none
  | c :: rest =>
    if isSpace c then (nextVisible? rest).map fun taken => taken.within (Nat.le_succ _)
    else some ⟨c, rest, Nat.lt_succ_self _⟩

/-- The 16-bit unit written with four hexadecimal digits. -/
def unit? (first second third fourth : Char) : Option Nat :=
  Number.hexNumber? [first, second, third, fourth]

/-- The character that a two-character escape stands for. -/
def simpleEscape? : Char → Option Char
  | '"' => some '"'
  | '\\' => some '\\'
  | '/' => some '/'
  | 'b' => some '\x08'
  | 'f' => some '\x0c'
  | 'n' => some '\n'
  | 'r' => some '\r'
  | 't' => some '\t'
  | _ => none

/-- Reads the characters of a string up to its closing quote; `read` holds those before, from the
last to the first. -/
def readString (read : List Char) : List Char → Option (String × List Char)
  | [] => none
  | '"' :: rest => some (String.ofList read.reverse, rest)
  | '\\' :: 'u' :: a :: b :: c :: d :: rest =>
    match unit? a b c d with
    | none => none
    | some unit =>
      if unit < 0xd800 || 0xe000 ≤ unit then readString (Char.ofNat unit :: read) rest
      else if 0xdc00 ≤ unit then none
      else
        match rest with
        | '\\' :: 'u' :: e :: f :: g :: h :: rest =>
          match unit? e f g h with
          | none => none
          | some low =>
            if 0xdc00 ≤ low && low < 0xe000 then
              let point := 0x10000 + (unit - 0xd800) * 0x400 + (low - 0xdc00)
              readString (Char.ofNat point :: read) rest
            else none
        | _ => none
  | '\\' :: c :: rest =>
    match simpleEscape? c with
    | some escaped => readString (escaped :: read) rest
    | none => none
  | c :: rest => if c.toNat < 0x20 || c == '\\' then none else readString (c :: read) rest

theorem readString_length {read text rest : List Char} {string : String}
    (taken : readString read text = some (string, rest)) : rest.length < text.length := by
  fun_induction readString read text <;> simp_all <;> omega

/-- Digits of which there is at least one. -/
def readDigits (text : List Char) : Option (List Char × List Char) :=
  let digits := text.takeWhile Char.isDigit
  if digits.isEmpty then none else some (digits, text.dropWhile Char.isDigit)

/-- The digits before the point: a zero alone, or digits that do not start with one. -/
def readWhole (text : List Char) : Option (List Char × List Char) :=
  match text with
  | '0' :: rest =>
    match rest with
    | c :: _ => if c.isDigit then none else some (['0'], rest)
    | [] => some (['0'], rest)
  | _ => readDigits text

/-- An optional fraction: a point and digits. -/
def readFraction (text : List Char) : Option (List Char × List Char) :=
  match text with
  | '.' :: after => readDigits after
  | _ => some ([], text)

/-- An optional exponent: its mark, an optional sign and digits. -/
def readExponent (text : List Char) : Option (Int × List Char) :=
  match text with
  | [] => some (0, [])
  | mark :: after =>
    if mark == 'e' || mark == 'E' then
      let (negative, unsigned) := Number.takeSign after
      (readDigits unsigned).map fun (digits, rest) =>
        (Number.signed negative (Number.digitsValue 0 digits), rest)
    else some (0, text)

/-- Reads a number after its sign. -/
def readNumeral (negative : Bool) (text : List Char) : Option (Numeral × List Char) := do
  let (whole, rest) ← readWhole text
  let (fraction, rest) ← readFraction rest
  let (exponent, rest) ← readExponent rest
  return (⟨negative, whole, fraction, exponent⟩, rest)

theorem readDigits_length {text digits rest : List Char}
    (read : readDigits text = some (digits, rest)) : rest.length < text.length := by
  unfold readDigits at read
  simp only [Option.ite_none_left_eq_some, Option.some.injEq, Prod.mk.injEq] at read
  obtain ⟨some, rfl, rfl⟩ := read
  have whole :=
    congrArg List.length (List.takeWhile_append_dropWhile (p := Char.isDigit) (l := text))
  have positive : 0 < (text.takeWhile Char.isDigit).length :=
    List.length_pos_iff.mpr (by simpa using some)
  simp only [List.length_append] at whole
  omega

theorem readWhole_length {text digits rest : List Char}
    (read : readWhole text = some (digits, rest)) : rest.length < text.length := by
  unfold readWhole at read
  split at read
  · split at read <;> simp_all
    grind
  · exact readDigits_length read

theorem readFraction_length {text digits rest : List Char}
    (read : readFraction text = some (digits, rest)) : rest.length ≤ text.length := by
  unfold readFraction at read
  split at read
  · have := readDigits_length read
    simp only [List.length_cons]
    omega
  · simp only [Option.some.injEq, Prod.mk.injEq] at read
    exact Nat.le_of_eq (congrArg List.length read.2.symm)

theorem takeSign_length (text : List Char) :
    (Number.takeSign text).2.length ≤ text.length := by
  unfold Number.takeSign
  split <;> simp

theorem readExponent_length {text rest : List Char} {exponent : Int}
    (read : readExponent text = some (exponent, rest)) : rest.length ≤ text.length := by
  unfold readExponent at read
  split at read
  · simp_all
  · rename_i mark after
    split at read
    · simp only [Option.map_eq_some_iff, Prod.mk.injEq, Prod.exists] at read
      obtain ⟨digits, other, found, _, rfl⟩ := read
      have first := readDigits_length found
      have second := takeSign_length after
      simp only [List.length_cons]
      omega
    · simp only [Option.some.injEq, Prod.mk.injEq] at read
      exact Nat.le_of_eq (congrArg List.length read.2.symm)

theorem readNumeral_length {negative : Bool} {text rest : List Char} {numeral : Numeral}
    (read : readNumeral negative text = some (numeral, rest)) : rest.length < text.length := by
  simp only [readNumeral, Option.bind_eq_bind, Option.bind_eq_some_iff, Prod.exists,
    Option.pure_def, Option.some.injEq, Prod.mk.injEq] at read
  obtain ⟨_, _, whole, _, _, fraction, _, _, exponent, _, rfl⟩ := read
  have first := readWhole_length whole
  have second := readFraction_length fraction
  have third := readExponent_length exponent
  omega

/-- A pair of a value and a rest as something taken, given that the rest is shorter. -/
def takenOf {α : Type} {length : Nat} (result : Option (α × List Char))
    (shorter : ∀ value rest, result = some (value, rest) → rest.length < length) :
    Option (Taken Char α length) :=
  match result, shorter with
  | none, _ => none
  | some (value, rest), shorter => some ⟨value, rest, shorter value rest rfl⟩

/-- Reads one of the words of the grammar. -/
def readWord (text : List Char) : Option (Document × List Char) :=
  match text with
  | 'n' :: 'u' :: 'l' :: 'l' :: rest => some (.null, rest)
  | 't' :: 'r' :: 'u' :: 'e' :: rest => some (.bool true, rest)
  | 'f' :: 'a' :: 'l' :: 's' :: 'e' :: rest => some (.bool false, rest)
  | _ => none

/-- Reads what is neither an array nor an object. -/
def readScalar (text : List Char) : Option (Document × List Char) :=
  match text with
  | '"' :: rest => (readString [] rest).map fun (string, rest) => (.string string, rest)
  | '-' :: rest => (readNumeral true rest).map fun (numeral, rest) => (.number numeral, rest)
  | text =>
    match readWord text with
    | some word => some word
    | none => (readNumeral false text).map fun (numeral, rest) => (.number numeral, rest)

theorem readWord_length {text rest : List Char} {document : Document}
    (read : readWord text = some (document, rest)) : rest.length < text.length := by
  unfold readWord at read
  split at read <;> simp_all <;> omega

theorem readScalar_length {text rest : List Char} {document : Document}
    (read : readScalar text = some (document, rest)) : rest.length < text.length := by
  unfold readScalar at read
  split at read
  · simp only [Option.map_eq_some_iff, Prod.mk.injEq, Prod.exists] at read
    obtain ⟨_, _, found, _, rfl⟩ := read
    have := readString_length found
    simp only [List.length_cons]
    omega
  · simp only [Option.map_eq_some_iff, Prod.mk.injEq, Prod.exists] at read
    obtain ⟨_, _, found, _, rfl⟩ := read
    have := readNumeral_length found
    simp only [List.length_cons]
    omega
  · split at read
    · rename_i word found
      cases read
      exact readWord_length found
    · simp only [Option.map_eq_some_iff, Prod.mk.injEq, Prod.exists] at read
      obtain ⟨_, _, found, _, rfl⟩ := read
      exact readNumeral_length found

/-- Reads elements separated by commas up to a closing character. -/
def readElements {α : Type} (close : Char)
    (element : (text : List Char) → Option (Taken Char α text.length)) (text : List Char) :
    Option (Taken Char (List α) text.length) := do
  let item ← element text
  let mark ← nextVisible? item.rest
  if mark.value = close then return (item.after mark).map fun _ => [item.value]
  else if mark.value = ',' then
    let others ← readElements close element mark.rest
    return (item.after (mark.after others)).map (item.value :: ·)
  else none
termination_by text.length
decreasing_by exact Nat.lt_trans mark.shorter item.shorter

/-- Reads elements that may be none. -/
def readElementsOrNone {α : Type} (close : Char)
    (element : (text : List Char) → Option (Taken Char α text.length)) (text : List Char) :
    Option (Taken Char (List α) text.length) := do
  let mark ← nextVisible? text
  if mark.value = close then return mark.map fun _ => []
  else readElements close element text

/-- Reads a member of an object, given how to read a value. -/
def readMember (value : (text : List Char) → Option (Taken Char Document text.length))
    (text : List Char) : Option (Taken Char (String × Document) text.length) := do
  let quote ← nextVisible? text
  if quote.value = '"' then
    let name ← takenOf (readString [] quote.rest) fun _ _ => readString_length
    let colon ← nextVisible? name.rest
    if colon.value = ':' then
      let member ← value colon.rest
      return (quote.after (name.after (colon.after member))).map fun document =>
        (name.value, document)
    else none
  else none

/-- Reads a value in which arrays and objects nest to less than a depth. -/
def readValue : (depth : Nat) → (text : List Char) → Option (Taken Char Document text.length)
  | 0, _ => none
  | depth + 1, text => do
    let lead ← nextVisible? text
    if lead.value = '[' then
      if depth = 0 then none
      else
        let items ← readElementsOrNone ']' (readValue depth) lead.rest
        return (lead.after items).map Document.array
    else if lead.value = '\x7b' then
      if depth = 0 then none
      else
        let members ← readElementsOrNone '\x7d' (readMember (readValue depth)) lead.rest
        return (lead.after members).map Document.object
    else
      let scalar ← takenOf (readScalar (lead.value :: lead.rest)) fun _ _ => readScalar_length
      return lead.afterMaybe scalar

/-- The document that a text holds, apart from white space around it. -/
def parse? (text : String) : Option Document := do
  let taken ← readValue 128 text.toList
  if (nextVisible? taken.rest).isNone then some taken.value else none

theorem parse?_empty : parse? "" = none := by cbv

end DataBind.Json
