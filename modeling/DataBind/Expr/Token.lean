/-
**The tokens of binding expressions.**

* `Punctuation.all_complete`: the table of punctuation lists every mark;
* `SyntaxError.message`: the one place where the wording of syntax errors is fixed.
-/

import DataBind.Number.Display
import DataBind.Text.Quoted

namespace DataBind.Expr

/-- The punctuation marks and operators. -/
inductive Punctuation where
  | equalStrict | notEqualStrict | equal | notEqual | lessEqual | greaterEqual
  | both | either | otherwise
  | openParen | closeParen | openBracket | closeBracket | openBrace | closeBrace
  | comma | dot | colon | question
  | bang | plus | minus | star | slash | percent | less | greater
  deriving DecidableEq, Repr

namespace Punctuation

/-- The text of a mark. -/
def lexeme : Punctuation → String
  | equalStrict => "==="
  | notEqualStrict => "!=="
  | equal => "=="
  | notEqual => "!="
  | lessEqual => "<="
  | greaterEqual => ">="
  | both => "&&"
  | either => "||"
  | otherwise => "??"
  | openParen => "("
  | closeParen => ")"
  | openBracket => "["
  | closeBracket => "]"
  | openBrace => "\x7b"
  | closeBrace => "\x7d"
  | comma => ","
  | dot => "."
  | colon => ":"
  | question => "?"
  | bang => "!"
  | plus => "+"
  | minus => "-"
  | star => "*"
  | slash => "/"
  | percent => "%"
  | less => "<"
  | greater => ">"

/-- All marks, longer ones before their beginnings. -/
def all : List Punctuation :=
  [equalStrict, notEqualStrict, equal, notEqual, lessEqual, greaterEqual, both, either, otherwise,
    openParen, closeParen, openBracket, closeBracket, openBrace, closeBrace, comma, dot, colon,
    question, bang, plus, minus, star, slash, percent, less, greater]

/-- The table of punctuation lists every mark. -/
theorem all_complete (mark : Punctuation) : mark ∈ all := by
  cases mark <;> decide

end Punctuation

/-- A token. Words are identifiers and keywords alike. -/
inductive Token where
  | number (amount : Float)
  | string (text : String)
  | word (name : String)
  | symbol (mark : Punctuation)

namespace Token

/-- A token as messages show it. -/
def describe : Token → String
  | .number amount => Number.display amount
  | .string text => "string " ++ Text.quoted text
  | .word name => "'" ++ name ++ "'"
  | .symbol mark => "'" ++ mark.lexeme ++ "'"

/-- Whether a token is a given mark. -/
def isMark (wanted : Punctuation) : Token → Bool
  | .symbol mark => mark == wanted
  | _ => false

end Token

/-- A token with the byte offset at which it starts. -/
structure Spanned where
  token : Token
  offset : Nat

/-- What is wrong with the source of an expression. -/
inductive SyntaxFault where
  | unexpectedCharacter (c : Char)
  | invalidNumber (lexeme : String)
  | unterminatedString
  | invalidEscape (digits : String)
  | unexpectedToken (token : Token)
  | unexpectedEnd
  | expectedMark (wanted : Punctuation) (found : Option Token)
  | expectedPropertyName
  | expectedPropertyKey

/-- A fault and the byte offset where it shows. -/
structure SyntaxError where
  fault : SyntaxFault
  position : Nat

namespace SyntaxError

/-- The wording of a fault. -/
def message (error : SyntaxError) : String :=
  match error.fault with
  | .unexpectedCharacter c => "unexpected character " ++ Text.quotedCharacter c
  | .invalidNumber lexeme => "invalid number " ++ Text.quoted lexeme
  | .unterminatedString => "unterminated string"
  | .invalidEscape digits => "invalid escape \\u" ++ digits
  | .unexpectedToken token => "unexpected " ++ token.describe
  | .unexpectedEnd => "unexpected end of expression"
  | .expectedMark wanted found =>
    "expected " ++ (Token.symbol wanted).describe ++ ", got " ++
      (match found with
        | some token => token.describe
        | none => "end of input")
  | .expectedPropertyName => "expected property name after '.'"
  | .expectedPropertyKey => "expected property key"

/-- The wording of a fault with its offset. -/
def describe (error : SyntaxError) : String :=
  error.message ++ " at offset " ++ toString error.position

end SyntaxError

end DataBind.Expr
