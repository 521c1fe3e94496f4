/-
**Escaping text and attribute values.**

In text only angle brackets are replaced, so that entity references written in a template stay as
they are. Attribute values stand in double quotes; quotes become references, and backslashes and
control characters are written with a backslash.

* `escape_append`: text is escaped character by character;
* `not_mem_escape`: escaped text has no angle brackets.
-/

import DataBind.Text.Quoted

namespace DataBind.Markup

/-- What a character becomes in text. -/
def escapeCharacter (c : Char) : List Char :=
  if c = '<' then ['&', 'l', 't', ';']
  else if c = '>' then ['&', 'g', 't', ';']
  else [c]

/-- Text with its angle brackets escaped. -/
def escapeCharacters (text : List Char) : List Char :=
  text.flatMap escapeCharacter

/-- A string with its angle brackets escaped. -/
def escape (text : String) : String :=
  String.ofList (escapeCharacters text.toList)

/-- What a character becomes in an attribute value. -/
def escapeInAttribute (c : Char) : List Char :=
  if c = '"' then ['&', 'q', 'u', 'o', 't', ';']
  else if c = '\\' then ['\\', '\\']
  else if c = '\n' then ['\\', 'n']
  else if c = '\r' then ['\\', 'r']
  else if c = '\t' then ['\\', 't']
  else if c = '\x08' then ['\\', 'b']
  else if c = '\x0c' then ['\\', 'f']
  else if c.toNat < 0x20 then
    let digits := Text.hexDigits c.toNat
    '\\' :: 'u' :: List.replicate (4 - digits.length) '0' ++ digits
  else escapeCharacter c

/-- An attribute value in quotes. -/
def quotedValue (value : String) : String :=
  String.ofList ('"' :: value.toList.flatMap escapeInAttribute ++ ['"'])

/-- An attribute as it stands in a start tag, with the space before it. -/
def attributeText (name value : String) : String :=
  " " ++ escape name ++ "=" ++ quotedValue value

theorem escape_append (first second : List Char) :
    escapeCharacters (first ++ second) = escapeCharacters first ++ escapeCharacters second := by
  simp [escapeCharacters]

/-- Escaped text has no angle brackets. -/
theorem not_mem_escape (text : List Char) :
    '<' ∉ escapeCharacters text ∧ '>' ∉ escapeCharacters text := by
  induction text with
  | nil => simp [escapeCharacters]
  | cons c rest ih =>
    have head : '<' ∉ escapeCharacter c ∧ '>' ∉ escapeCharacter c := by
      unfold escapeCharacter
      split
      · decide
      · split
        · decide
        · simp_all [eq_comm]
    simp_all [escapeCharacters]

end DataBind.Markup
