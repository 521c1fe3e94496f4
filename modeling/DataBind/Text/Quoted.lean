/-
**Text in quotes, for messages.**

A quoted text stands in double quotes; quotes, backslashes, line ends, tabs and NUL are written
with a backslash, and characters that are not printable by their code point in hexadecimal.

* `quoted_nil`: the empty text is a pair of quotes.
-/

import DataBind.Text.Printable

namespace DataBind.Text

/-- The hexadecimal digits of a number, in lower case and without padding. -/
def hexDigits (n : Nat) : List Char :=
  Nat.toDigits 16 n

/-- How a character is written between two marks. -/
def escapedIn (mark c : Char) : List Char :=
  if c = mark then ['\\', c]
  else
    match c with
    | '\\' => ['\\', '\\']
    | '\n' => ['\\', 'n']
    | '\t' => ['\\', 't']
    | '\r' => ['\\', 'r']
    | '\x00' => ['\\', '0']
    | c => if isPrintable c then [c] else ['\\', 'u', '\x7b'] ++ hexDigits c.toNat ++ ['\x7d']

/-- A text in double quotes. -/
def quoted (text : String) : String :=
  String.ofList ('"' :: text.toList.flatMap (escapedIn '"') ++ ['"'])

/-- A character in single quotes. -/
def quotedCharacter (c : Char) : String :=
  String.ofList ('\x27' :: escapedIn '\x27' c ++ ['\x27'])

theorem quoted_nil : quoted "" = "\"\"" := by decide

end DataBind.Text
