/-
**From source text to tokens.**

White space separates tokens; otherwise each token is the longest text that can be one. Offsets
count the bytes of the source.

* `spanNumber_append`: the longest number and what follows it make up the text;
* `readString_length`, `readMark?_length`: what is read leaves a shorter rest;
* `tokensFrom_blank`: leading white space only moves the offset.
-/

import DataBind.Expr.Token
import DataBind.Number.Numeral
import DataBind.Text.Blank
import DataBind.Text.Letter
import DataBind.Text.Measure
import DataBind.Text.Search
import DataBind.Text.Taken

namespace DataBind.Expr

open DataBind.Text

/-- Whether a word can start with a character. -/
def startsWord (c : Char) : Bool :=
  isAlphabetic c || c == '_' || c == '$'

/-- Whether a word can go on with a character. -/
def continuesWord (c : Char) : Bool :=
  isAlphanumeric c || c == '_' || c == '$'

/-! ### Numbers -/

/-- The part of a number up to its exponent: digits with an optional point and more digits. -/
def spanMantissa (text : List Char) : List Char × List Char :=
  let (whole, rest) := Number.spanDigits text
  match rest with
  | '.' :: after =>
    let (fraction, rest) := Number.spanDigits after
    (whole ++ '.' :: fraction, rest)
  | _ => (whole, rest)

/-- An exponent at the start of a text, if its sign is followed by digits. -/
def spanExponent (text : List Char) : List Char × List Char :=
  match text with
  | mark :: after =>
    if mark == 'e' || mark == 'E' then
      let (sign, unsigned) :=
        match after with
        | '+' :: rest => (['+'], rest)
        | '-' :: rest => (['-'], rest)
        | _ => ([], after)
      let (digits, rest) := Number.spanDigits unsigned
      if digits.isEmpty then ([], text) else (mark :: sign ++ digits, rest)
    else ([], text)
  | [] => ([], [])

/-- The longest number at the start of a text. -/
def spanNumber (text : List Char) : List Char × List Char :=
  let (mantissa, rest) := spanMantissa text
  let (exponent, rest) := spanExponent rest
  (mantissa ++ exponent, rest)

theorem spanDigits_append (text : List Char) :
    (Number.spanDigits text).1 ++ (Number.spanDigits text).2 = text := by
  simp [Number.spanDigits]

theorem spanMantissa_append (text : List Char) :
    (spanMantissa text).1 ++ (spanMantissa text).2 = text := by
  have whole := spanDigits_append text
  unfold spanMantissa
  simp only
  split
  · rename_i after point
    have fraction := spanDigits_append after
    rw [point] at whole
    simp only [List.append_assoc, List.cons_append, fraction, whole]
  · exact whole

theorem spanExponent_append (text : List Char) :
    (spanExponent text).1 ++ (spanExponent text).2 = text := by
  unfold spanExponent
  split
  · rename_i mark after
    split
    · simp only
      generalize signed : (match after with
        | '+' :: rest => (['+'], rest)
        | '-' :: rest => (['-'], rest)
        | _ => ([], after)) = parts
      have whole : parts.1 ++ parts.2 = after := by
        subst signed
        split <;> rfl
      have digits := spanDigits_append parts.2
      split
      · simp
      · simp only [List.cons_append, List.append_assoc, digits, whole]
    · simp
  · rfl

theorem spanNumber_append (text : List Char) :
    (spanNumber text).1 ++ (spanNumber text).2 = text := by
  have mantissa := spanMantissa_append text
  have exponent := spanExponent_append (spanMantissa text).2
  simp only [spanNumber, List.append_assoc, exponent, mantissa]

/-! ### Strings -/

/-- Digits without the plus sign that may stand before them. -/
def withoutPlus : List Char → List Char
  | '+' :: digits => digits
  | digits => digits

/-- The character with the code point that hexadecimal digits denote; a plus sign may stand before
them. -/
def codePoint? (text : List Char) : Option Char :=
  (Number.hexNumber? (withoutPlus text)).bind fun point =>
    if point < 0xd800 || (0xe000 ≤ point && point < 0x110000) then some (Char.ofNat point)
    else none

/-- The character that a backslash and another character stand for. -/
def escapeOf : Char → Char
  | 'n' => '\n'
  | 't' => '\t'
  | 'r' => '\r'
  | 'b' => '\x08'
  | 'f' => '\x0c'
  | 'v' => '\x0b'
  | '0' => '\x00'
  | c => c

/-- Reads what follows a backslash. -/
def readEscape : List Char → Except SyntaxFault (Char × List Char)
  | [] => .error .unterminatedString
  | 'u' :: after =>
    match codePoint? (after.take 4) with
    | none => .error (.invalidEscape (String.ofList (after.take 4)))
    | some point => .ok (point, after.drop 4)
  | c :: after => .ok (escapeOf c, after)

theorem readEscape_length {text rest : List Char} {c : Char}
    (read : readEscape text = .ok (c, rest)) : rest.length < text.length := by
  unfold readEscape at read
  split at read
  · simp at read
  · split at read
    · simp at read
    · simp only [Except.ok.injEq, Prod.mk.injEq] at read
      simp only [← read.2, List.length_drop, List.length_cons]
      omega
  · simp only [Except.ok.injEq, Prod.mk.injEq] at read
    simp [read.2]

/-- Reads the characters of a string up to its closing quote. -/
def readString (quote : Char) (text : List Char) : Except SyntaxFault (List Char × List Char) :=
  match text with
  | [] => .error .unterminatedString
  | c :: rest =>
    if c = quote then .ok ([], rest)
    else if c = '\\' then
      match escape : readEscape rest with
      | .error fault => .error fault
      | .ok (point, after) =>
        have := readEscape_length escape
        (readString quote after).map fun (inner, rest) => (point :: inner, rest)
    else (readString quote rest).map fun (inner, rest) => (c :: inner, rest)
termination_by text.length

theorem readString_length {quote : Char} {source text rest : List Char}
    (read : readString quote source = .ok (text, rest)) : rest.length < source.length := by
  fun_induction readString quote source generalizing text rest with
  | case1 => simp at read
  | case2 =>
    simp only [Except.ok.injEq, Prod.mk.injEq] at read
    simp [read.2]
  | case3 => simp at read
  | case4 _ _ _ after escape shorter ih =>
    obtain ⟨⟨inner, other⟩, result, same⟩ := exists_of_map_eq_ok read
    simp only [Prod.mk.injEq] at same
    have := ih result
    simp only [List.length_cons, ← same.2]
    omega
  | case5 _ _ _ _ ih =>
    obtain ⟨⟨inner, other⟩, result, same⟩ := exists_of_map_eq_ok read
    simp only [Prod.mk.injEq] at same
    have := ih result
    simp only [List.length_cons, ← same.2]
    omega

/-! ### Tokens -/

/-- The first mark of the table that a text starts with, and the rest. -/
def readMark? (text : List Char) : Option (Punctuation × List Char) :=
  Punctuation.all.findSome? fun mark =>
    (afterLead? mark.lexeme.toList text).map fun rest => (mark, rest)

theorem readMark?_length {text rest : List Char} {mark : Punctuation}
    (read : readMark? text = some (mark, rest)) : rest.length < text.length := by
  obtain ⟨found, _, same⟩ := List.exists_of_findSome?_eq_some read
  simp only [Option.map_eq_some_iff, Prod.mk.injEq] at same
  obtain ⟨after, lead, rfl, rfl⟩ := same
  rw [afterLead?_eq_some.mp lead]
  cases found <;> simp [Punctuation.lexeme] <;> omega

/-- Whether a number starts here: with a digit, or with a point and a digit. -/
def startsNumber : List Char → Bool
  | '.' :: d :: _ => d.isDigit
  | c :: _ => c.isDigit
  | [] => false

theorem spanNumber_length {text : List Char} (starts : startsNumber text = true) :
    (spanNumber text).2.length < text.length := by
  have whole := congrArg List.length (spanNumber_append text)
  have positive : (spanMantissa text).1 ≠ [] := by
    unfold startsNumber at starts
    split at starts
    · simp [spanMantissa, Number.spanDigits]
    · unfold spanMantissa
      simp only
      split <;> simp_all [Number.spanDigits]
    · simp at starts
  have positive := List.length_pos_iff.mpr positive
  simp only [spanNumber, List.length_append] at whole ⊢
  omega

/-- Reads the token at the start of a text that is not empty. -/
def readToken (c : Char) (rest : List Char) :
    Except SyntaxFault (Taken Char Token (c :: rest).length) :=
  if number : startsNumber (c :: rest) = true then
    let lexeme := (spanNumber (c :: rest)).1
    match Number.readNumber? lexeme with
    | some amount => .ok ⟨.number amount, (spanNumber (c :: rest)).2, spanNumber_length number⟩
    | none => .error (.invalidNumber (String.ofList lexeme))
  else if c = '"' ∨ c = '\x27' then
    match string : readString c rest with
    | .error fault => .error fault
    | .ok (text, after) =>
      .ok ⟨.string (String.ofList text), after, Nat.lt_succ_of_lt (readString_length string)⟩
  else if startsWord c then
    .ok ⟨.word (String.ofList (c :: rest.takeWhile continuesWord)), rest.dropWhile continuesWord,
      Nat.lt_succ_of_le (List.dropWhile_suffix _).length_le⟩
  else
    match mark : readMark? (c :: rest) with
    | some (found, after) => .ok ⟨.symbol found, after, readMark?_length mark⟩
    | none => .error (.unexpectedCharacter c)

/-- The tokens of a text that starts at an offset of the source. -/
def tokensFrom (offset : Nat) (text : List Char) : Except SyntaxError (List Spanned) :=
  match text with
  | [] => .ok []
  | c :: rest =>
    if isBlank c then tokensFrom (offset + c.utf8Size) rest
    else
      match readToken c rest with
      | .error fault => .error ⟨fault, offset⟩
      | .ok taken =>
        let width := byteLength (c :: rest) - byteLength taken.rest
        (tokensFrom (offset + width) taken.rest).map (⟨taken.value, offset⟩ :: ·)
termination_by text.length
decreasing_by
  · exact Nat.lt_succ_self _
  · exact taken.shorter

/-- The tokens of an expression's source. -/
def tokenize (source : String) : Except SyntaxError (List Spanned) :=
  tokensFrom 0 source.toList

/-- Leading white space only moves the offset. -/
theorem tokensFrom_blank (offset : Nat) {c : Char} (rest : List Char) (blank : isBlank c = true) :
    tokensFrom offset (c :: rest) = tokensFrom (offset + c.utf8Size) rest := by
  rw [tokensFrom]
  simp [blank]

end DataBind.Expr
