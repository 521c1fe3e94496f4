/-
**The tokens of a text.**

* `tokensOf?`: the tokens of a text without their offsets, if it can be read;
* `readToken?_eq`: what is read as a token;
* `tokensOf?_cons`: the first token of a text, and those of what follows it;
* `spells_of_tokensOf?`: a text spells its tokens;
* `parse_eq_ok_iff`: a text is an expression if it has tokens that derive one.
-/

import DataBind.Proofs.Expr.Parsing
import DataBind.Proofs.Expr.Spelling

namespace DataBind.Expr

open DataBind.Text

/-- The token at the start of a text, and what follows it. -/
def readToken? (c : Char) (rest : List Char) : Option (Token × List Char) :=
  (readToken c rest).toOption.map fun taken => (taken.value, taken.rest)

/-- The tokens of a text, if it can be read. -/
def tokensOf? (text : List Char) : Option (List Token) :=
  (tokensFrom 0 text).toOption.map (List.map Spanned.token)

/-- What is read as a token: a number, a string, a word or a mark. -/
theorem readToken?_eq (c : Char) (rest : List Char) : readToken? c rest =
    if startsNumber (c :: rest) = true then
      (Number.readNumber? (spanNumber (c :: rest)).1).map fun amount =>
        (.number amount, (spanNumber (c :: rest)).2)
    else if c = '"' ∨ c = '\x27' then
      (readString c rest).toOption.map fun (text, after) => (.string (String.ofList text), after)
    else if startsWord c = true then
      some (.word (String.ofList (c :: rest.takeWhile continuesWord)),
        rest.dropWhile continuesWord)
    else (readMark? (c :: rest)).map fun (mark, after) => (.symbol mark, after) := by
  unfold readToken? readToken
  by_cases number : startsNumber (c :: rest) = true
  · rw [dif_pos number, if_pos number]
    simp only
    split
    · rename_i read
      rw [read]
      rfl
    · rename_i read
      rw [read]
      rfl
  · rw [dif_neg number, if_neg number]
    by_cases quote : c = '"' ∨ c = '\x27'
    · rw [if_pos quote, if_pos quote]
      split
      · rename_i read
        rw [read]
        rfl
      · rename_i read
        simp only [read]
        rfl
    · rw [if_neg quote, if_neg quote]
      by_cases word : startsWord c = true
      · rw [if_pos word, if_pos word]
        rfl
      · rw [if_neg word, if_neg word]
        split
        · rename_i read
          simp only [read]
          rfl
        · rename_i read
          rw [read]
          rfl

theorem map_toOption {ε α β : Type} (f : α → β) (result : Except ε α) :
    (result.map f).toOption = result.toOption.map f := by
  cases result <;> rfl

/-- Offsets have no effect on the tokens. -/
theorem tokensFrom_offset (offset other : Nat) (text : List Char) :
    (tokensFrom offset text).toOption.map (List.map Spanned.token) =
      (tokensFrom other text).toOption.map (List.map Spanned.token) := by
  fun_induction tokensFrom offset text generalizing other with
  | case1 => rw [tokensFrom]
  | case2 _ c rest blank ih =>
    rw [tokensFrom_blank other rest blank]
    exact ih _
  | case3 _ c rest solid _ read =>
    rw [tokensFrom, if_neg solid]
    simp only [read]
    rfl
  | case4 offset c rest solid taken read =>
    rename_i ih
    rw [tokensFrom, if_neg solid]
    simp only [read]
    have later := ih (other + (byteLength (c :: rest) - byteLength taken.rest))
    rw [map_toOption, map_toOption, Option.map_map, Option.map_map]
    have cons : ∀ offset, List.map Spanned.token ∘ List.cons ⟨taken.value, offset⟩ =
        List.cons taken.value ∘ List.map Spanned.token := fun _ => rfl
    rw [cons, cons, ← Option.map_map, ← Option.map_map]
    exact congrArg (Option.map (List.cons taken.value)) later

theorem tokensOf?_nil : tokensOf? [] = some [] := by
  rw [tokensOf?, tokensFrom]
  rfl

theorem tokensOf?_blank {c : Char} (blank : isBlank c = true) (rest : List Char) :
    tokensOf? (c :: rest) = tokensOf? rest := by
  rw [tokensOf?, tokensFrom_blank 0 rest blank]
  exact tokensFrom_offset _ _ rest

/-- The first token, and those of what follows it. -/
theorem tokensOf?_cons {c : Char} (solid : isBlank c = false) (rest : List Char) :
    tokensOf? (c :: rest) = (readToken? c rest).bind fun (token, after) =>
      (tokensOf? after).map (token :: ·) := by
  rw [tokensOf?, tokensFrom, if_neg (by rw [solid]; exact Bool.false_ne_true), readToken?]
  cases read : readToken c rest with
  | error fault => rfl
  | ok taken =>
    simp only [Except.toOption, Option.map_some, Option.bind_some]
    rw [tokensOf?, ← tokensFrom_offset (0 + (byteLength (c :: rest) - byteLength taken.rest))]
    cases tokensFrom (0 + (byteLength (c :: rest) - byteLength taken.rest)) taken.rest <;> rfl

theorem not_quote {c : Char} (quote : isStringQuote c = false) : ¬(c = '"' ∨ c = '\x27') := by
  rw [isStringQuote, Bool.or_eq_false_iff, beq_eq_false_iff_ne, beq_eq_false_iff_ne] at quote
  exact not_or.mpr quote

/-- A mark is read as a token where no number, string or word starts. -/
theorem readToken?_mark {c : Char} {rest after : List Char} {mark : Punctuation}
    (number : startsNumber (c :: rest) = false) (quote : isStringQuote c = false)
    (word : startsWord c = false) (read : readMark? (c :: rest) = some (mark, after)) :
    readToken? c rest = some (.symbol mark, after) := by
  rw [readToken?_eq, if_neg (by rw [number]; exact Bool.false_ne_true), if_neg (not_quote quote),
    if_neg (by rw [word]; exact Bool.false_ne_true), read]
  rfl

theorem readToken?_length {c : Char} {rest after : List Char} {token : Token}
    (read : readToken? c rest = some (token, after)) : after.length ≤ rest.length := by
  obtain ⟨taken, _, same⟩ := Option.map_eq_some_iff.mp read
  cases same
  exact Nat.le_of_lt_succ taken.shorter

/-- A word is read as a token where no number or string starts. -/
theorem readToken?_word {c : Char} {rest : List Char} (number : startsNumber (c :: rest) = false)
    (quote : isStringQuote c = false) (word : startsWord c = true) :
    readToken? c rest = some (.word (String.ofList (c :: rest.takeWhile continuesWord)),
      rest.dropWhile continuesWord) := by
  rw [readToken?_eq, if_neg (by rw [number]; exact Bool.false_ne_true),
    if_neg (not_quote quote), if_pos word]

/-- A mark at the start of a text is the first token. -/
theorem tokensOf?_mark {c : Char} {rest after : List Char} {mark : Punctuation}
    (solid : isBlank c = false) (number : startsNumber (c :: rest) = false)
    (quote : isStringQuote c = false) (word : startsWord c = false)
    (read : readMark? (c :: rest) = some (mark, after)) :
    tokensOf? (c :: rest) = (tokensOf? after).map (.symbol mark :: ·) := by
  rw [tokensOf?_cons solid, readToken?_mark number quote word read]
  rfl

/-- A word at the start of a text is the first token. -/
theorem tokensOf?_word {c : Char} {rest : List Char} (word after : List Char)
    (solid : isBlank c = false) (number : startsNumber (c :: rest) = false)
    (quote : isStringQuote c = false)
    (starts : startsWord c = true) (taken : rest.takeWhile continuesWord = word)
    (left : rest.dropWhile continuesWord = after) :
    tokensOf? (c :: rest) = (tokensOf? after).map (.word (String.ofList (c :: word)) :: ·) := by
  rw [tokensOf?_cons solid, readToken?_word number quote starts, taken, left]
  rfl

/-- No digit starts a word. -/
theorem startsWord_of_isDigit {c : Char} (digit : c.isDigit = true) : startsWord c = false := by
  have digits : ∀ point < 0x3a, 0x30 ≤ point → startsWord (Char.ofNat point) = false := by
    decide +kernel
  obtain ⟨least, most⟩ : 0x30 ≤ c.toNat ∧ c.toNat ≤ 0x39 := Char.isDigit_iff_toNat.mp digit
  rw [← Char.ofNat_toNat c]
  exact digits c.toNat (by omega) least

/-- No number starts as a word does. -/
theorem startsNumber_of_startsWord {c : Char} (starts : startsWord c = true) (rest : List Char) :
    startsNumber (c :: rest) = false := by
  have digit : c.isDigit = false := by
    cases digit : c.isDigit with
    | false => rfl
    | true => exact absurd starts (by rw [startsWord_of_isDigit digit]; decide)
  have point : c ≠ '.' := by
    rintro rfl
    exact absurd starts (by decide)
  simp [startsNumber, point, digit]

/-- No string starts as a word does. -/
theorem isStringQuote_of_startsWord {c : Char} (starts : startsWord c = true) :
    isStringQuote c = false := by
  rw [isStringQuote, Bool.or_eq_false_iff, beq_eq_false_iff_ne, beq_eq_false_iff_ne]
  constructor
  · rintro rfl
    exact absurd starts (by decide)
  · rintro rfl
    exact absurd starts (by decide)

/-- **A word is one token.** -/
theorem tokensOf?_of_isWord {text : List Char} (word : isWord text = true) :
    tokensOf? text = some [.word (String.ofList text)] := by
  cases text with
  | nil => cases word
  | cons c rest =>
    rw [isWord, Bool.and_eq_true, List.all_eq_true] at word
    obtain ⟨starts, continues⟩ := word
    rw [tokensOf?_word rest [] (isBlank_of_continuesWord (continuesWord_of_startsWord starts))
      (startsNumber_of_startsWord starts rest) (isStringQuote_of_startsWord starts) starts
      (List.takeWhile_eq_self_iff.mpr continues) (List.dropWhile_eq_nil_iff.mpr continues),
      tokensOf?_nil]
    rfl

/-- A text spells its tokens. -/
theorem spells_of_tokensOf? {text : List Char} {tokens : List Token}
    (read : tokensOf? text = some tokens) : Spells tokens text := by
  rw [tokensOf?] at read
  cases found : tokensFrom 0 text with
  | error error =>
    rw [found] at read
    cases read
  | ok spanned =>
    rw [found] at read
    cases read
    exact spells_of_tokensFrom found

/-- **A text is an expression if it has tokens that derive one.** -/
theorem parse_eq_ok_iff {source : String} {tree : Expr} : parse source = .ok tree ↔
    ∃ tokens, tokensOf? source.toList = some tokens ∧ Derives .conditional tokens tree := by
  rw [tokensOf?, parse, tokenize]
  cases tokensFrom 0 source.toList with
  | error error => simp [bind, Except.bind, Except.toOption]
  | ok tokens => simp [bind, Except.bind, Except.toOption, ofTokens_eq_ok_iff]

theorem Derives.ident {name : String} (free : name ∉ reserved) :
    Derives .conditional [.word name] (.ident name) :=
  (Derives.name free).loosen (by decide)

/-- **A word that is not reserved is an expression.** -/
theorem parse_of_isWord {name : String} (word : isWord name.toList = true)
    (free : name ∉ reserved) : parse name = .ok (.ident name) := by
  refine parse_eq_ok_iff.mpr ⟨[.word name], ?_, .ident free⟩
  rw [tokensOf?_of_isWord word, String.ofList_toList]

end DataBind.Expr
