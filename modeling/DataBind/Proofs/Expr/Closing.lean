/-
**A closing parenthesis behind a text.**

No token goes on with a closing parenthesis, so behind a text it is a token of its own; and what
cannot be read as tokens cannot be read with the parenthesis either.

* `readToken?_close`: a token ends where it did;
* `tokensOf?_close`: with a closing parenthesis behind the text there is one token more;
* `tokensOf?_negated`: the tokens of a negation are those of the text, between three marks.
-/

import DataBind.Proofs.Expr.Tokens

namespace DataBind.Expr

open DataBind.Text

/-! ### Readers in front of a closing parenthesis -/

/-- A run of characters of a class ends where it did, if the class has no closing parenthesis. -/
theorem span_close {among : Char → Bool} (other : among ')' = false) (text : List Char) :
    (text ++ [')']).takeWhile among = text.takeWhile among ∧
      (text ++ [')']).dropWhile among = text.dropWhile among ++ [')'] := by
  induction text with
  | nil => simp [other]
  | cons c text ih =>
    rw [List.cons_append, List.takeWhile_cons, List.dropWhile_cons, List.takeWhile_cons,
      List.dropWhile_cons]
    split
    · exact ⟨congrArg (c :: ·) ih.1, ih.2⟩
    · exact ⟨rfl, rfl⟩

theorem spanDigits_close (text : List Char) : Number.spanDigits (text ++ [')']) =
    ((Number.spanDigits text).1, (Number.spanDigits text).2 ++ [')']) := by
  have other : Char.isDigit ')' = false := by decide
  have digits := span_close other text
  rw [Number.spanDigits, digits.1, digits.2]
  rfl

theorem spanMantissa_close (text : List Char) : spanMantissa (text ++ [')']) =
    ((spanMantissa text).1, (spanMantissa text).2 ++ [')']) := by
  unfold spanMantissa
  rw [spanDigits_close]
  cases rest : (Number.spanDigits text).2 with
  | nil => simp [rest]
  | cons c after =>
    by_cases point : c = '.'
    · subst point
      simp [rest, spanDigits_close]
    · simp [rest, point]

theorem spanExponent_close (text : List Char) : spanExponent (text ++ [')']) =
    ((spanExponent text).1, (spanExponent text).2 ++ [')']) := by
  cases text with
  | nil => rfl
  | cons mark after =>
    rw [List.cons_append]
    unfold spanExponent
    by_cases letter : (mark == 'e' || mark == 'E') = true
    · simp only [letter, if_true]
      cases after with
      | nil => rfl
      | cons c rest =>
        have whole := spanDigits_close (c :: rest)
        have unsigned := spanDigits_close rest
        rw [List.cons_append] at whole ⊢
        by_cases plus : c = '+'
        · subst plus
          simp only [unsigned]
          split <;> rfl
        · by_cases minus : c = '-'
          · subst minus
            simp only [unsigned]
            split <;> rfl
          · simp [plus, minus, whole]
            split <;> rfl
    · simp only [letter]
      rfl

theorem spanNumber_close (text : List Char) : spanNumber (text ++ [')']) =
    ((spanNumber text).1, (spanNumber text).2 ++ [')']) := by
  simp only [spanNumber, spanMantissa_close, spanExponent_close]

/-- No code point is written with a closing parenthesis. -/
theorem codePoint?_close {text : List Char} (member : ')' ∈ text) : codePoint? text = none := by
  cases found : codePoint? text with
  | none => rfl
  | some point =>
    rcases numerals_of_codePoint? found member with same | digit
    · exact absurd same (by decide)
    · exact absurd digit (by decide)

/-- An escape takes the same in front of a closing parenthesis, unless it fails, or nothing is left
behind it for the end of the string. -/
theorem readEscape_close (text : List Char) :
    (∃ point after, readEscape text = .ok (point, after) ∧
      readEscape (text ++ [')']) = .ok (point, after ++ [')'])) ∨
    ∀ point after, (readEscape text = .ok (point, after) ∨
      readEscape (text ++ [')']) = .ok (point, after)) → after = [] := by
  cases text with
  | nil =>
    refine Or.inr fun point after read => ?_
    rcases read with read | read
    · cases read
    · cases read
      rfl
  | cons c rest =>
    by_cases unicode : c = 'u'
    · subst unicode
      rw [List.cons_append]
      by_cases long : 4 ≤ rest.length
      · have taken : (rest ++ [')']).take 4 = rest.take 4 := List.take_append_of_le_length long
        have left : (rest ++ [')']).drop 4 = rest.drop 4 ++ [')'] :=
          List.drop_append_of_le_length long
        simp only [readEscape, taken, left]
        cases codePoint? (rest.take 4) with
        | none =>
          refine Or.inr fun point after read => ?_
          rcases read with read | read <;> cases read
        | some point => exact Or.inl ⟨point, _, rfl, rfl⟩
      · have closing : ')' ∈ (rest ++ [')']).take 4 := by
          rw [List.take_of_length_le (by simp; omega)]
          exact List.mem_append_right _ List.mem_cons_self
        refine Or.inr fun point after read => ?_
        simp only [readEscape, codePoint?_close closing] at read
        rcases read with read | read
        · cases found : codePoint? (rest.take 4) with
          | none =>
            rw [found] at read
            cases read
          | some _ =>
            rw [found] at read
            cases read
            exact List.drop_of_length_le (by omega)
        · cases read
    · exact Or.inl ⟨escapeOf c, rest, readEscape_of_ne unicode rest, readEscape_of_ne unicode _⟩

/-- A string goes on behind a character other than its quote and the backslash. -/
theorem readString_other {quote c : Char} (different : c ≠ quote) (noSlash : c ≠ '\\')
    (rest : List Char) : (readString quote (c :: rest)).toOption =
      (readString quote rest).toOption.map fun (inner, rest) => (c :: inner, rest) := by
  rw [readString, if_neg different, if_neg noSlash, map_toOption]

theorem toOption_readString_escape {quote : Char} (slash : '\\' ≠ quote) (rest : List Char) :
    (readString quote ('\\' :: rest)).toOption =
      (readEscape rest).toOption.bind fun (point, after) =>
        (readString quote after).toOption.map fun (inner, rest) => (point :: inner, rest) := by
  rw [readString_escape slash]
  cases readEscape rest with
  | error fault => rfl
  | ok taken => exact map_toOption _ _

/-- **A string ends where it did**, or nowhere, also in front of a closing parenthesis. -/
theorem readString_close {quote : Char} (mark : isStringQuote quote = true) (text : List Char) :
    (readString quote (text ++ [')'])).toOption =
      (readString quote text).toOption.map fun (inner, rest) => (inner, rest ++ [')']) := by
  have other : ')' ≠ quote := by
    rintro rfl
    cases mark
  have ends : (readString quote []).toOption = none := by
    rw [readString]
    rfl
  induction length : text.length using Nat.strong_induction_on generalizing text with
  | _ size ih =>
    cases text with
    | nil =>
      rw [List.nil_append, readString_other other (by decide), ends]
      rfl
    | cons c rest =>
      rw [List.length_cons] at length
      rw [List.cons_append]
      by_cases ending : c = quote
      · rw [readString, readString, if_pos ending, if_pos ending]
        rfl
      · by_cases slash : c = '\\'
        · subst slash
          rw [toOption_readString_escape ending, toOption_readString_escape ending]
          rcases readEscape_close rest with ⟨point, after, read, also⟩ | short
          · have shorter := readEscape_length read
            rw [read, also]
            show ((readString quote (after ++ [')'])).toOption.map _) = _
            rw [ih _ (by omega) after rfl, Option.map_map]
            show _ = ((readString quote after).toOption.map _).map _
            rw [Option.map_map]
            rfl
          · -- with or without the parenthesis the string has no end
            have unended : ∀ text,
                (∀ point after, readEscape text = .ok (point, after) → after = []) →
                ((readEscape text).toOption.bind fun (point, after) =>
                  (readString quote after).toOption.map fun (inner, rest) =>
                    (point :: inner, rest)) = none := by
              intro text short
              cases read : readEscape text with
              | error fault => rfl
              | ok taken =>
                obtain ⟨point, after⟩ := taken
                cases short point after read
                show (readString quote []).toOption.map _ = none
                rw [ends]
                rfl
            rw [unended rest fun point after read => short point after (Or.inl read),
              unended (rest ++ [')']) fun point after read => short point after (Or.inr read)]
            rfl
        · rw [readString_other ending slash, readString_other ending slash,
            ih _ (by omega) rest rfl, Option.map_map, Option.map_map]
          rfl

/-! ### Marks and tokens in front of a closing parenthesis -/

theorem afterLead?_close {lead : List Char} (free : ')' ∉ lead) (text : List Char) :
    afterLead? lead (text ++ [')']) = (afterLead? lead text).map (· ++ [')']) := by
  induction lead generalizing text with
  | nil => rfl
  | cons d lead ih =>
    rw [List.mem_cons, not_or] at free
    cases text with
    | nil => simp [afterLead?, Ne.symm free.1]
    | cons c text =>
      rw [List.cons_append, afterLead?, afterLead?, ih free.2]
      split <;> rfl

/-- A mark ends where it did. -/
theorem readMark?_close (c : Char) (rest : List Char) : readMark? (c :: (rest ++ [')'])) =
    (readMark? (c :: rest)).map fun (mark, after) => (mark, after ++ [')']) := by
  have lead : ∀ mark : Punctuation, afterLead? mark.lexeme.toList (c :: (rest ++ [')'])) =
      (afterLead? mark.lexeme.toList (c :: rest)).map (· ++ [')']) := by
    intro mark
    by_cases closing : mark = .closeParen
    · subst closing
      show (if ')' = c then some (rest ++ [')']) else none) =
        (if ')' = c then some rest else none).map (· ++ [')'])
      split <;> rfl
    · refine afterLead?_close ?_ (c :: rest)
      revert closing
      cases mark <;> decide
  unfold readMark?
  induction Punctuation.all with
  | nil => rfl
  | cons mark others ih =>
    rw [List.findSome?_cons, List.findSome?_cons, lead mark]
    cases afterLead? mark.lexeme.toList (c :: rest) with
    | none => exact ih
    | some after => rfl

theorem startsNumber_close (c : Char) (rest : List Char) :
    startsNumber (c :: (rest ++ [')'])) = startsNumber (c :: rest) := by
  by_cases point : c = '.'
  · subst point
    cases rest <;> rfl
  · simp [startsNumber, point]

/-- **A token ends where it did**, and the closing parenthesis follows what followed it. -/
theorem readToken?_close (c : Char) (rest : List Char) : readToken? c (rest ++ [')']) =
    (readToken? c rest).map fun (token, after) => (token, after ++ [')']) := by
  have number := spanNumber_close (c :: rest)
  have other : continuesWord ')' = false := by decide +kernel
  have word := span_close other rest
  rw [List.cons_append] at number
  rw [readToken?_eq, readToken?_eq, startsNumber_close, number, word.1, word.2, readMark?_close]
  by_cases starts : startsNumber (c :: rest) = true
  · rw [if_pos starts, if_pos starts, Option.map_map]
    rfl
  · rw [if_neg starts, if_neg starts]
    by_cases quote : c = '"' ∨ c = '\x27'
    · have mark : isStringQuote c = true := by
        rw [isStringQuote, Bool.or_eq_true, beq_iff_eq, beq_iff_eq]
        exact quote
      rw [if_pos quote, if_pos quote, readString_close mark, Option.map_map, Option.map_map]
      rfl
    · rw [if_neg quote, if_neg quote]
      split
      · rfl
      · rw [Option.map_map, Option.map_map]
        rfl

/-! ### Texts in parentheses -/

/-- **Behind a text a closing parenthesis is one token more**, and what cannot be read cannot be
read with it either. -/
theorem tokensOf?_close (text : List Char) :
    tokensOf? (text ++ [')']) = (tokensOf? text).map (· ++ [.symbol .closeParen]) := by
  have alone : tokensOf? [')'] = some [.symbol .closeParen] := by
    rw [tokensOf?_mark rfl rfl rfl (by decide) rfl, tokensOf?_nil]
    rfl
  induction length : text.length using Nat.strong_induction_on generalizing text with
  | _ size ih =>
    cases text with
    | nil =>
      rw [List.nil_append, alone, tokensOf?_nil]
      rfl
    | cons c rest =>
      rw [List.length_cons] at length
      rw [List.cons_append]
      cases blank : isBlank c with
      | true =>
        rw [tokensOf?_blank blank, tokensOf?_blank blank]
        exact ih _ (by omega) rest rfl
      | false =>
        rw [tokensOf?_cons blank, tokensOf?_cons blank, readToken?_close]
        cases read : readToken? c rest with
        | none => rfl
        | some taken =>
          obtain ⟨token, after⟩ := taken
          have shorter := readToken?_length read
          show (tokensOf? (after ++ [')'])).map _ = ((tokensOf? after).map _).map _
          rw [ih _ (by omega) after rfl, Option.map_map, Option.map_map]
          rfl

/-- The negation of a text in parentheses, as characters. -/
def negated (text : List Char) : List Char :=
  '!' :: '(' :: (text ++ [')'])

/-- The tokens of a negation. -/
def negation (tokens : List Token) : List Token :=
  .symbol .bang :: .symbol .openParen :: (tokens ++ [.symbol .closeParen])

/-- **The tokens of a negation** are those of the text, between the marks around it. -/
theorem tokensOf?_negated (text : List Char) :
    tokensOf? (negated text) = (tokensOf? text).map negation := by
  rw [negated, tokensOf?_mark rfl rfl rfl (by decide) rfl,
    tokensOf?_mark rfl rfl rfl (by decide) rfl, tokensOf?_close, Option.map_map, Option.map_map]
  rfl

end DataBind.Expr
