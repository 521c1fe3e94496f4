/-
**Upper and lower case of text.**

The full case mappings: a character may become several, and a capital sigma at the end of a word
becomes the final small sigma.

* `upperCase_append`: upper case is taken character by character;
* `asciiLower_length`: ASCII lower case keeps the number of characters.
-/

import DataBind.Text.CodePoints
import DataBind.Text.CaseTable

namespace DataBind.Text

/-- The code point that a table of runs maps to. -/
def shifted? (runs : List (Nat × Nat × Nat × Int)) (point : Nat) : Option Nat :=
  runs.findSome? fun (first, last, step, shift) =>
    if first ≤ point && point ≤ last && (point - first) % step == 0 then
      some (Int.toNat (point + shift))
    else none

/-- The full mapping of one character by a table of runs and a table of sequences. -/
def mapped (runs : List (Nat × Nat × Nat × Int)) (sequences : List (Nat × List Nat)) (c : Char) :
    List Char :=
  match shifted? runs c.toNat with
  | some point => [Char.ofNat point]
  | none =>
    match sequences.lookup c.toNat with
    | some points => points.map Char.ofNat
    | none => [c]

/-- The upper case of a character. -/
def upperCharacter (c : Char) : List Char :=
  if c.toNat < 0x80 then [c.toUpper] else mapped upperRuns upperSequences c

/-- The lower case of a character on its own. -/
def lowerCharacter (c : Char) : List Char :=
  if c.toNat < 0x80 then [c.toLower] else mapped lowerRuns lowerSequences c

/-- Whether a character has the property Cased. -/
def isCased (c : Char) : Bool :=
  within casedBoundaries c.toNat

/-- Whether a character has the property Case_Ignorable. -/
def isCaseIgnorable (c : Char) : Bool :=
  within caseIgnorableBoundaries c.toNat

/-- Whether the first character that is not ignorable is a cased one. -/
def meetsCased (text : List Char) : Bool :=
  match text.dropWhile isCaseIgnorable with
  | [] => false
  | c :: _ => isCased c

/-- The upper case of text. -/
def upperCase (text : List Char) : List Char :=
  text.flatMap upperCharacter

/-- The lower case of the rest of a text, given the characters before it from the last to the
first. A capital sigma is final when a cased character stands before it and none after it. -/
def lowerCaseAfter (before : List Char) : List Char → List Char
  | [] => []
  | c :: rest =>
    let lower :=
      if c = 'Σ' then (if meetsCased before && !meetsCased rest then ['ς'] else ['σ'])
      else lowerCharacter c
    lower ++ lowerCaseAfter (c :: before) rest

/-- The lower case of text. -/
def lowerCase (text : List Char) : List Char :=
  lowerCaseAfter [] text

/-- Text with its ASCII capitals in lower case. -/
def asciiLower (text : List Char) : List Char :=
  text.map Char.toLower

theorem upperCase_append (first second : List Char) :
    upperCase (first ++ second) = upperCase first ++ upperCase second := by
  simp [upperCase]

theorem asciiLower_length (text : List Char) : (asciiLower text).length = text.length := by
  simp [asciiLower]

end DataBind.Text
