/-
**String literals as tokens.**

A quote starts a string, which is one token if its text is written as strings are. Otherwise the
reader fails at the quote; no other token is a string.

* `string_of_readToken?`: a string token is read behind a quote;
* `tokensFrom_written`, `tokensFrom_failed`: a literal is one token, or fails at its quote;
* `tokenize_written`: every string in either quote, written in any of its forms;
* `Reaches`: the reader comes to a place of a source;
* `strings_exact`: which literals are tokens of a source, and where the other ones fail.
-/

import DataBind.Proofs.Expr.Escapes
import DataBind.Proofs.Expr.Lexemes

namespace DataBind.Expr

open DataBind.Text

/-! ### String tokens -/

theorem exists_taken {c : Char} {rest after : List Char} {token : Token}
    (read : readToken? c rest = some (token, after)) :
    ∃ taken, readToken c rest = .ok taken ∧ taken.value = token ∧ taken.rest = after := by
  rw [readToken?] at read
  cases result : readToken c rest with
  | error fault =>
    rw [result] at read
    cases read
  | ok taken =>
    rw [result] at read
    cases read
    exact ⟨taken, rfl, rfl, rfl⟩

/-- Only behind a quote a string is read as a token. -/
theorem string_of_readToken? {c : Char} {rest after : List Char} {value : String}
    (read : readToken? c rest = some (.string value, after)) :
    isStringQuote c = true ∧ readString c rest = .ok (value.toList, after) := by
  rw [readToken?_eq] at read
  split_ifs at read with number quote word
  · obtain ⟨amount, _, same⟩ := Option.map_eq_some_iff.mp read
    cases same
  · refine ⟨by rwa [isStringQuote, Bool.or_eq_true, beq_iff_eq, beq_iff_eq], ?_⟩
    cases result : readString c rest with
    | error fault =>
      rw [result] at read
      cases read
    | ok taken =>
      rw [result] at read
      cases read
      rw [String.toList_ofList]
  · cases read
  · obtain ⟨taken, _, same⟩ := Option.map_eq_some_iff.mp read
    cases same

section Tokens

variable {quote : Char} (mark : isStringQuote quote = true)

include mark

theorem not_startsNumber_quote (source : List Char) : ¬ startsNumber (quote :: source) = true := by
  rcases quote_cases mark with rfl | rfl <;> simp [startsNumber]

/-- Behind a quote there is a string. -/
theorem readToken?_string (source : List Char) : readToken? quote source =
    (readString quote source).toOption.map fun (text, after) =>
      (.string (String.ofList text), after) := by
  rw [readToken?_eq, if_neg (not_startsNumber_quote mark source), if_pos (quote_cases mark)]

theorem isBlank_quote : isBlank quote = false := by
  rcases quote_cases mark with rfl | rfl <;> rfl

theorem readToken?_written {value text : List Char} (written : Written (Lenient quote) value text)
    (rest : List Char) :
    readToken? quote (text ++ quote :: rest) = some (.string (String.ofList value), rest) := by
  rw [readToken?_string mark, readString_written mark written]
  rfl

/-- **A literal is one token**, and the reader goes on behind its closing quote. -/
theorem tokensFrom_written {value text : List Char} (written : Written (Lenient quote) value text)
    (offset : Nat) (rest : List Char) : tokensFrom offset (quote :: (text ++ quote :: rest)) =
      (tokensFrom (offset + byteLength (quote :: (text ++ [quote]))) rest).map
        (⟨.string (String.ofList value), offset⟩ :: ·) := by
  have width : byteLength (quote :: (text ++ quote :: rest)) - byteLength rest =
      byteLength (quote :: (text ++ [quote])) := by
    simp only [byteLength_cons, byteLength_append, byteLength_nil]
    omega
  rw [tokensFrom_cons offset (isBlank_quote mark) (readToken?_written mark written rest), width]

/-- **A string that fails** makes the reader fail at its opening quote. -/
theorem tokensFrom_failed {source : List Char} {fault : SyntaxFault}
    (failed : readString quote source = .error fault) (offset : Nat) :
    tokensFrom offset (quote :: source) = .error ⟨fault, offset⟩ := by
  have read : readToken quote source = .error fault := by
    rw [readToken, dif_neg (not_startsNumber_quote mark source), if_pos (quote_cases mark)]
    split
    · rename_i result
      rw [failed] at result
      cases result
      rfl
    · rename_i result
      rw [failed] at result
      cases result
  rw [tokensFrom, if_neg (by rw [isBlank_quote mark]; exact Bool.false_ne_true), read]

end Tokens

/-- **Every string can be written in either quote.** With backslashes before its quotes and
backslashes, and in any other forms of its characters, it is read back as one token; the text behind
the closing quote has no effect on that, and the reader goes on with it. -/
theorem tokenize_written {quote : Char} (mark : isStringQuote quote = true) :
    (∀ value : String, tokenize (String.ofList (quote :: (escaped quote value.toList ++ [quote]))) =
      .ok [⟨.string value, 0⟩]) ∧
    (∀ c : Char, c.toNat < 0x10000 → ∃ digits, Form quote c ('\\' :: 'u' :: digits)) ∧
    ∀ value text, Written (Form quote) value text →
      tokenize (String.ofList (quote :: (text ++ [quote]))) =
        .ok [⟨.string (String.ofList value), 0⟩] ∧
      ∀ offset rest,
        (∃ taken, readToken quote (text ++ quote :: rest) = .ok taken ∧
          taken.value = .string (String.ofList value) ∧ taken.rest = rest) ∧
        tokensFrom offset (quote :: (text ++ quote :: rest)) =
          (tokensFrom (offset + byteLength (quote :: (text ++ [quote]))) rest).map
            (⟨.string (String.ofList value), offset⟩ :: ·) := by
  have single : ∀ value text, Written (Form quote) value text →
      tokenize (String.ofList (quote :: (text ++ [quote]))) =
        .ok [⟨.string (String.ofList value), 0⟩] := by
    intro value text written
    have lenient : Written (Lenient quote) value text := written.mono fun _ _ => .form
    rw [tokenize, String.toList_ofList, tokensFrom_written mark lenient, tokensFrom]
    rfl
  refine ⟨fun value => ?_, fun c => exists_form_digits quote, fun value text written => ?_⟩
  · have read := single _ _ (written_escaped quote value.toList)
    rwa [String.ofList_toList] at read
  · have lenient : Written (Lenient quote) value text := written.mono fun _ _ => .form
    refine ⟨single value text written, fun offset rest => ⟨?_, ?_⟩⟩
    · exact exists_taken (readToken?_written mark lenient rest)
    · exact tokensFrom_written mark lenient offset rest

/-- An apostrophe behind a backslash, and a letter by its code point, between apostrophes. -/
theorem tokenize_written_apostrophe :
    isStringQuote '\x27' = true ∧
      tokenize "'\\'\\u00e9'" = .ok [⟨.string "'\u00e9", 0⟩] := by
  have four : FourDigits ['0', '0', 'e', '9'] '\u00e9' :=
    ⟨rfl, (hexNumber?_eq_some_iff.mp rfl).2⟩
  have written : Written (Form '\x27') ['\x27', '\u00e9']
      (['\\', '\x27'] ++ (['\\', 'u', '0', '0', 'e', '9'] ++ [])) :=
    .cons (.escaped (Or.inl rfl)) (.cons (.digits four) .nil)
  exact ⟨rfl, ((tokenize_written rfl).2.2 _ _ written).1⟩

/-! ### Literals of a source -/

/-- The reader that stands at an offset, with a text ahead, reads tokens and then stands at another
offset, with another text ahead. -/
inductive Reaches : Nat → List Char → List Spanned → Nat → List Char → Prop
  | here {offset : Nat} {text : List Char} : Reaches offset text [] offset text
  | blank {offset place : Nat} {c : Char} {rest ahead : List Char} {tokens : List Spanned} :
      isBlank c = true → Reaches (offset + c.utf8Size) rest tokens place ahead →
      Reaches offset (c :: rest) tokens place ahead
  | token {offset place : Nat} {c : Char} {rest after ahead : List Char} {token : Token}
      {tokens : List Spanned} : isBlank c = false → readToken? c rest = some (token, after) →
      Reaches (offset + (byteLength (c :: rest) - byteLength after)) after tokens place ahead →
      Reaches offset (c :: rest) (⟨token, offset⟩ :: tokens) place ahead

/-- What is read in the end are the tokens up to a place and those behind it. -/
theorem Reaches.tokensFrom_eq {offset place : Nat} {text ahead : List Char} {before : List Spanned}
    (reaches : Reaches offset text before place ahead) :
    tokensFrom offset text = (tokensFrom place ahead).map (before ++ ·) := by
  induction reaches with
  | @here offset text =>
    cases tokensFrom offset text <;> rfl
  | blank blank _ ih => rw [tokensFrom_blank _ _ blank, ih]
  | @token _ place _ _ _ ahead _ _ solid read _ ih =>
    rw [tokensFrom_cons _ solid read, ih]
    cases tokensFrom place ahead <;> rfl

/-- **A string token is read from a literal** that the reader comes to. -/
theorem exists_literal {offset place : Nat} {text : List Char} {tokens : List Spanned}
    {value : String} (read : tokensFrom offset text = .ok tokens)
    (member : ⟨.string value, place⟩ ∈ tokens) :
    ∃ quote inner rest before, isStringQuote quote = true ∧
      Written (Lenient quote) value.toList inner ∧
      Reaches offset text before place (quote :: (inner ++ quote :: rest)) := by
  fun_induction tokensFrom offset text generalizing tokens with
  | case1 =>
    cases read
    cases member
  | case2 _ c rest blank ih =>
    obtain ⟨quote, inner, after, before, mark, written, reaches⟩ := ih read member
    exact ⟨quote, inner, after, before, mark, written, .blank blank reaches⟩
  | case3 => cases read
  | case4 offset c rest solid taken result =>
    rename_i ih
    obtain ⟨others, later, same⟩ := exists_of_map_eq_ok read
    cases same
    have found : readToken? c rest = some (taken.value, taken.rest) := by
      rw [readToken?, result]
      rfl
    have solid : isBlank c = false := by simpa using solid
    rcases List.mem_cons.mp member with own | other
    · obtain ⟨same, rfl⟩ := Spanned.mk.inj own
      rw [← same] at found
      obtain ⟨mark, string⟩ := string_of_readToken? found
      obtain ⟨inner, whole, written⟩ := exists_written string
      exact ⟨c, inner, taken.rest, [], mark, written, whole ▸ .here⟩
    · obtain ⟨quote, inner, after, before, mark, written, reaches⟩ := ih later other
      exact ⟨quote, inner, after, _, mark, written, .token solid found reaches⟩

/-- **Which literals are tokens.** A string token is read from a literal in which each character is
written in a form that the reader takes; behind `\u` these are four digits of a code point, or a
plus sign and three. Wherever the reader comes to a quote, such a literal is a token, any other
text behind a `\u` fails at the quote, and so does all that is no such literal. -/
theorem strings_exact (source : String) :
    (∀ tokens, tokenize source = .ok tokens → ∀ value place, ⟨.string value, place⟩ ∈ tokens →
      ∃ quote text rest before, isStringQuote quote = true ∧
        Written (Lenient quote) value.toList text ∧
        Reaches 0 source.toList before place (quote :: (text ++ quote :: rest))) ∧
    ∀ before place quote ahead, isStringQuote quote = true →
      Reaches 0 source.toList before place (quote :: ahead) →
      (∀ value text rest, Written (Lenient quote) value text → ahead = text ++ quote :: rest →
        tokenize source = (tokensFrom (place + byteLength (quote :: (text ++ [quote]))) rest).map
          fun later => before ++ ⟨.string (String.ofList value), place⟩ :: later) ∧
      (∀ value text other, Written (Lenient quote) value text →
        ahead = text ++ '\\' :: 'u' :: other →
        (∀ c, ¬ FourDigits (other.take 4) c ∧ ¬ SignedDigits (other.take 4) c) →
        ∃ fault, tokenize source = .error ⟨fault, place⟩ ∧
          (4 ≤ other.length → fault = .invalidEscape (String.ofList (other.take 4)))) ∧
      ((∀ value text rest, Written (Lenient quote) value text → ahead ≠ text ++ quote :: rest) →
        ∃ fault, tokenize source = .error ⟨fault, place⟩) := by
  refine ⟨fun tokens read value place member => exists_literal read member,
    fun before place quote ahead mark reaches => ⟨?_, ?_, ?_⟩⟩
  · rintro value text rest written rfl
    rw [tokenize, reaches.tokensFrom_eq, tokensFrom_written mark written]
    cases tokensFrom (place + byteLength (quote :: (text ++ [quote]))) rest <;> rfl
  · rintro value text other written rfl malformed
    obtain ⟨fault, failed, cause⟩ := readString_malformed mark written malformed
    refine ⟨fault, ?_, cause⟩
    rw [tokenize, reaches.tokensFrom_eq, tokensFrom_failed mark failed]
    rfl
  · intro none
    cases result : readString quote ahead with
    | error fault =>
      refine ⟨fault, ?_⟩
      rw [tokenize, reaches.tokensFrom_eq, tokensFrom_failed mark result]
      rfl
    | ok taken =>
      obtain ⟨text, whole, written⟩ := exists_written result
      exact absurd whole (none _ _ _ written)

/-- The escape of `a '\u00g1'` is no digits, so that the source fails at the quote. -/
theorem strings_exact_noDigit :
    isStringQuote '\x27' = true ∧
      Reaches 0 "a '\\u00g1'".toList [⟨.word "a", 0⟩] 2 "'\\u00g1'".toList ∧
      ∃ fault, tokenize "a '\\u00g1'" = .error ⟨fault, 2⟩ ∧
        fault = .invalidEscape "00g1" := by
  have word : readToken? 'a' " '\\u00g1'".toList = some (.word "a", " '\\u00g1'".toList) :=
    readToken?_word rfl rfl (by decide)
  have reaches : Reaches 0 "a '\\u00g1'".toList [⟨.word "a", 0⟩] 2 "'\\u00g1'".toList :=
    .token rfl word (.blank rfl .here)
  have malformed : ∀ c,
      ¬ FourDigits ['0', '0', 'g', '1'] c ∧ ¬ SignedDigits ['0', '0', 'g', '1'] c :=
    fun c => not_or.mp fun either => by cases (codePoint?_eq_some_iff rfl).mpr either
  obtain ⟨_, fails, _⟩ := (strings_exact "a '\\u00g1'").2 _ _ _ _ rfl reaches
  obtain ⟨fault, failed, cause⟩ := fails [] [] "00g1'".toList .nil rfl malformed
  exact ⟨rfl, reaches, fault, failed, cause (by decide)⟩

/-- A plus sign is no hexadecimal digit, but the reader takes one behind `\u`. -/
theorem escape_with_sign :
    tokenize "'\\u+041'" = .ok [⟨.string "A", 0⟩] ∧
      ¬ ∃ c, FourDigits ['+', '0', '4', '1'] c := by
  constructor
  · have signed : SignedDigits ['+', '0', '4', '1'] 'A' :=
      ⟨_, rfl, rfl, (hexNumber?_eq_some_iff.mp rfl).2⟩
    have written : Written (Lenient '\x27') ['A'] (['\\', 'u', '+', '0', '4', '1'] ++ []) :=
      .cons (.signed signed) .nil
    exact (tokensFrom_written rfl written 0 []).trans (by rw [tokensFrom]; rfl)
  · rintro ⟨c, _, digits⟩
    cases hexNumber?_eq_some_iff.mpr ⟨List.cons_ne_nil _ _, digits⟩

end DataBind.Expr
