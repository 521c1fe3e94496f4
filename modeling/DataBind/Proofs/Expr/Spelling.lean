/-
**Tokens and the texts that spell them.**

A text that is read as tokens consists of their lexemes, in order, with white space around them.

* `Quoted`: what a string has after its opening quote;
* `Lexeme`: the texts of a token, none of which starts or ends with white space;
* `Spells`: the texts of a list of tokens;
* `spells_of_tokensFrom`: a text spells the tokens that are read from it;
* `Spells.append`, `Spells.trimEnd`: tokens one after the other are spelled by texts one after the
  other, and the white space after the last can be trimmed.
-/

import DataBind.Proofs.Expr.Escapes
import DataBind.Proofs.Text.Trimming

namespace DataBind.Expr

open DataBind.Text

/-! ### Characters -/

/-- The characters of numbers. -/
def isNumeral (c : Char) : Bool :=
  c.isDigit || c == '.' || c == 'e' || c == 'E' || c == '+' || c == '-'

/-- Whether a text is a word: a character that can start one, and others that can go on with it. -/
def isWord : List Char → Bool
  | [] => false
  | c :: rest => startsWord c && rest.all continuesWord

theorem continuesWord_of_startsWord {c : Char} (starts : startsWord c = true) :
    continuesWord c = true := by
  rw [startsWord, Bool.or_eq_true, Bool.or_eq_true] at starts
  rw [continuesWord, Bool.or_eq_true, Bool.or_eq_true]
  exact starts.imp_left (Or.imp_left isAlphanumeric_of_isAlphabetic)

/-- The code points of white space. -/
def blankPoints : List Nat :=
  [0x09, 0x0a, 0x0b, 0x0c, 0x0d, 0x20, 0x85, 0xa0, 0x1680, 0x2000, 0x2001, 0x2002, 0x2003, 0x2004,
    0x2005, 0x2006, 0x2007, 0x2008, 0x2009, 0x200a, 0x2028, 0x2029, 0x202f, 0x205f, 0x3000]

theorem mem_blankPoints {c : Char} (blank : isBlank c = true) : c.toNat ∈ blankPoints := by
  unfold isBlank at blank
  unfold blankPoints
  simp only [List.mem_cons, List.not_mem_nil, or_false] at blank ⊢
  split at blank
  · simp only [Bool.or_eq_true, Bool.and_eq_true, beq_iff_eq, decide_eq_true_eq] at blank
    omega
  · simp only [Bool.or_eq_true, Bool.and_eq_true, beq_iff_eq, decide_eq_true_eq] at blank
    omega

/-- White space is in no word. -/
theorem isBlank_of_continuesWord {c : Char} (word : continuesWord c = true) :
    isBlank c = false := by
  have none : ∀ point ∈ blankPoints, continuesWord (Char.ofNat point) = false := by
    decide +kernel
  cases blank : isBlank c with
  | false => rfl
  | true =>
    have outside := none c.toNat (mem_blankPoints blank)
    rw [Char.ofNat_toNat, word] at outside
    cases outside

/-- White space is in no number. -/
theorem isBlank_of_isNumeral {c : Char} (numeral : isNumeral c = true) : isBlank c = false := by
  have none : ∀ point ∈ blankPoints, isNumeral (Char.ofNat point) = false := by decide
  cases blank : isBlank c with
  | false => rfl
  | true =>
    have outside := none c.toNat (mem_blankPoints blank)
    rw [Char.ofNat_toNat, numeral] at outside
    cases outside

/-! ### Strings -/

/-- What a string has after its opening quote, up to the closing one. -/
inductive Quoted (quote : Char) : List Char → Prop
  | close : Quoted quote [quote]
  | escape (c : Char) {rest : List Char} : Quoted quote rest → Quoted quote ('\\' :: c :: rest)
  | other {c : Char} {rest : List Char} :
      c ≠ quote → c ≠ '\\' → Quoted quote rest → Quoted quote (c :: rest)

/-- Characters other than the quote and the backslash can stand before the rest of a string. -/
theorem Quoted.prepend {quote : Char} {text rest : List Char}
    (plain : ∀ c ∈ text, c ≠ quote ∧ c ≠ '\\') (quoted : Quoted quote rest) :
    Quoted quote (text ++ rest) := by
  induction text with
  | nil => exact quoted
  | cons c text ih =>
    obtain ⟨first, later⟩ := List.forall_mem_cons.mp plain
    exact .other first.1 first.2 (ih later)

/-- A character in any form can stand before the rest of a string. -/
theorem Quoted.of_form {quote c : Char} (mark : isStringQuote quote = true)
    {piece rest : List Char} (form : Lenient quote c piece) (quoted : Quoted quote rest) :
    Quoted quote (piece ++ rest) := by
  have digits : ∀ text point, codePoint? text = some point →
      Quoted quote ('\\' :: 'u' :: text ++ rest) := by
    intro text point found
    have ends : ¬ (quote = '+' ∨ (Number.hexValue? quote).isSome) := by
      rcases quote_cases mark with rfl | rfl <;> decide
    have slash : ¬ ('\\' = '+' ∨ (Number.hexValue? '\\').isSome) := by decide
    refine .escape 'u' (quoted.prepend fun d member => ⟨?_, ?_⟩)
    · rintro rfl
      exact ends (numerals_of_codePoint? found member)
    · rintro rfl
      exact slash (numerals_of_codePoint? found member)
  cases form with
  | form form =>
    cases form with
    | plain different noSlash => exact .other different noSlash quoted
    | escaped _ => exact .escape _ quoted
    | letter _ => exact .escape _ quoted
    | digits four => exact digits _ _ ((codePoint?_eq_some_iff four.1).mpr (Or.inl four))
  | bare _ _ => exact .escape _ quoted
  | signed signed => exact digits _ _ ((codePoint?_eq_some_iff signed.length).mpr (Or.inr signed))

/-- **A string takes its text up to the closing quote**, and leaves the rest. -/
theorem quoted_of_readString {quote : Char} (mark : isStringQuote quote = true)
    {source text rest : List Char} (read : readString quote source = .ok (text, rest)) :
    ∃ used, source = used ++ rest ∧ Quoted quote used := by
  obtain ⟨inner, rfl, written⟩ := exists_written read
  refine ⟨inner ++ [quote], by rw [List.append_assoc, List.singleton_append], ?_⟩
  clear read
  induction written with
  | nil => exact .close
  | cons form _ ih =>
    rw [List.append_assoc]
    exact ih.of_form mark form

/-! ### Lexemes -/

/-- The texts of a token. -/
inductive Lexeme : Token → List Char → Prop
  | number {text : List Char} (amount : Float) :
      text ≠ [] → text.all isNumeral = true → Lexeme (.number amount) text
  | string {quote : Char} {inner : List Char} (text : String) :
      isStringQuote quote = true → Quoted quote inner → Lexeme (.string text) (quote :: inner)
  | word {text : List Char} : isWord text = true → Lexeme (.word (String.ofList text)) text
  | symbol (mark : Punctuation) : Lexeme (.symbol mark) mark.lexeme.toList

theorem Quoted.exists_concat {quote : Char} {text : List Char} (quoted : Quoted quote text) :
    ∃ inner, text = inner ++ [quote] := by
  induction quoted with
  | close => exact ⟨[], rfl⟩
  | escape c _ ih =>
    obtain ⟨inner, rfl⟩ := ih
    exact ⟨'\\' :: c :: inner, rfl⟩
  | @other c _ _ _ _ ih =>
    obtain ⟨inner, rfl⟩ := ih
    exact ⟨c :: inner, rfl⟩

namespace Lexeme

variable {token : Token} {text : List Char}

theorem ne_nil (lexeme : Lexeme token text) : text ≠ [] := by
  cases lexeme with
  | number _ nonempty => exact nonempty
  | string => exact List.cons_ne_nil _ _
  | word word =>
    rintro rfl
    cases word
  | symbol mark => cases mark <;> decide

/-- **A lexeme neither starts nor ends with white space.** -/
theorem trimmed (lexeme : Lexeme token text) : Trimmed text := by
  cases lexeme with
  | number amount nonempty all =>
    exact trimmed_of_solid fun c member => isBlank_of_isNumeral (List.all_eq_true.mp all c member)
  | @string quote inner _ mark quoted =>
    have solid : isBlank quote = false ∧ Trimmed [quote] := by
      rw [isStringQuote, Bool.or_eq_true, beq_iff_eq, beq_iff_eq] at mark
      rcases mark with rfl | rfl <;> decide
    obtain ⟨front, rfl⟩ := quoted.exists_concat
    exact trim_append solid.1 solid.2 (List.cons_ne_nil _ _) front
  | word word =>
    cases text with
    | nil => cases word
    | cons c rest =>
      rw [isWord, Bool.and_eq_true, List.all_eq_true] at word
      refine trimmed_of_solid (List.forall_mem_cons.mpr ⟨?_, fun d member => ?_⟩)
      · exact isBlank_of_continuesWord (continuesWord_of_startsWord word.1)
      · exact isBlank_of_continuesWord (word.2 d member)
  | symbol mark => cases mark <;> decide

end Lexeme

/-! ### Numbers, marks and tokens as they are read -/

theorem spanDigits_all (text : List Char) : (Number.spanDigits text).1.all isNumeral = true := by
  rw [List.all_eq_true]
  intro c member
  have digit : c.isDigit = true := List.mem_takeWhile_imp member
  simp [isNumeral, digit]

theorem spanNumber_all (text : List Char) : (spanNumber text).1.all isNumeral = true := by
  have mantissa : (spanMantissa text).1.all isNumeral = true := by
    unfold spanMantissa
    simp only
    split
    · rw [List.all_append, List.all_cons, spanDigits_all, spanDigits_all]
      rfl
    · exact spanDigits_all text
  have exponent : ∀ text, (spanExponent text).1.all isNumeral = true := by
    intro text
    unfold spanExponent
    split
    · rename_i mark after
      split
      · rename_i letter
        have first : isNumeral mark = true := by
          rw [Bool.or_eq_true, beq_iff_eq, beq_iff_eq] at letter
          rcases letter with rfl | rfl <;> rfl
        have signed : ∀ sign unsigned : List Char, sign.all isNumeral = true →
            (if (Number.spanDigits unsigned).1.isEmpty then ([], mark :: after)
              else (mark :: sign ++ (Number.spanDigits unsigned).1,
                (Number.spanDigits unsigned).2)).1.all isNumeral = true := by
          intro sign unsigned all
          split
          · rfl
          · rw [List.cons_append, List.all_cons, List.all_append, first, all, spanDigits_all]
            rfl
        split
        rename_i sign unsigned parts
        have all : sign.all isNumeral = true := by
          split at parts <;> cases parts <;> rfl
        exact signed sign unsigned all
      · rfl
    · rfl
  rw [spanNumber, List.all_append, mantissa, exponent]
  rfl

/-- **A token takes its lexeme**, and leaves the rest. -/
theorem lexeme_of_readToken {c : Char} {rest : List Char}
    {taken : Taken Char Token (c :: rest).length} (read : readToken c rest = .ok taken) :
    ∃ text, c :: rest = text ++ taken.rest ∧ Lexeme taken.value text := by
  unfold readToken at read
  split at read
  · rename_i number
    simp only at read
    split at read
    · rename_i amount _
      cases read
      refine ⟨(spanNumber (c :: rest)).1, (spanNumber_append _).symm,
        .number amount (fun empty => ?_) (spanNumber_all _)⟩
      have whole := congrArg List.length (spanNumber_append (c :: rest))
      have shorter := spanNumber_length number
      rw [List.length_append, empty, List.length_nil] at whole
      omega
    · cases read
  · split at read
    · rename_i quote
      have mark : isStringQuote c = true := by
        rw [isStringQuote, Bool.or_eq_true, beq_iff_eq, beq_iff_eq]
        exact quote
      split at read
      · cases read
      · rename_i string
        cases read
        obtain ⟨used, rfl, quoted⟩ := quoted_of_readString mark string
        exact ⟨c :: used, rfl, .string _ mark quoted⟩
    · split at read
      · rename_i starts
        cases read
        refine ⟨c :: rest.takeWhile continuesWord, ?_, .word ?_⟩
        · rw [List.cons_append, List.takeWhile_append_dropWhile]
        · rw [isWord, starts, List.all_eq_true.mpr fun d member => List.mem_takeWhile_imp member]
          rfl
      · split at read
        · rename_i found after mark
          cases read
          obtain ⟨same, _, found⟩ := List.exists_of_findSome?_eq_some mark
          obtain ⟨other, lead, same⟩ := Option.map_eq_some_iff.mp found
          cases same
          exact ⟨_, afterLead?_eq_some.mp lead, .symbol _⟩
        · cases read

/-! ### Texts of tokens -/

/-- The texts of a list of tokens: their lexemes in order, with white space around them. -/
inductive Spells : List Token → List Char → Prop
  | nil {blank : List Char} : (∀ c ∈ blank, isBlank c = true) → Spells [] blank
  | cons {token : Token} {tokens : List Token} {blank lexeme rest : List Char} :
      (∀ c ∈ blank, isBlank c = true) → Lexeme token lexeme → Spells tokens rest →
      Spells (token :: tokens) (blank ++ (lexeme ++ rest))

namespace Spells

variable {token : Token} {tokens more : List Token} {text : List Char}

/-- White space can stand before a text. -/
theorem blank (spells : Spells tokens text) {c : Char} (blank : isBlank c = true) :
    Spells tokens (c :: text) := by
  cases spells with
  | nil all => exact .nil (List.forall_mem_cons.mpr ⟨blank, all⟩)
  | cons all lexeme rest => exact .cons (List.forall_mem_cons.mpr ⟨blank, all⟩) lexeme rest

/-- **Tokens one after the other** are spelled by texts one after the other. -/
theorem append (spells : Spells (tokens ++ more) text) :
    ∃ first second, text = first ++ second ∧ Spells tokens first ∧ Spells more second := by
  induction tokens generalizing text with
  | nil => exact ⟨[], text, rfl, .nil (by simp), spells⟩
  | cons token tokens ih =>
    cases spells with
    | cons all lexeme rest =>
      obtain ⟨first, second, rfl, front, back⟩ := ih rest
      exact ⟨_, second, by simp, .cons all lexeme front, back⟩

/-- **White space after the last token** can be trimmed. -/
theorem trimEnd (spells : Spells (token :: tokens) text) :
    Spells (token :: tokens) (Text.trimEnd text) ∧ Text.trimEnd text ≠ [] := by
  -- up to the end of its last token the text is kept
  have parts : ∃ kept trailing, text = kept ++ trailing ∧ (∀ c ∈ trailing, isBlank c = true) ∧
      Spells (token :: tokens) kept ∧ Text.trimEnd kept = kept ∧ kept ≠ [] := by
    induction tokens generalizing token text with
    | nil =>
      cases spells with
      | @cons _ _ before lexeme _ all first later =>
        cases later with
        | nil after =>
          refine ⟨before ++ (lexeme ++ []), _, by simp, after, .cons all first (.nil (by simp)),
            ?_, by simp [first.ne_nil]⟩
          rw [List.append_nil]
          exact trimEnd_append first.trimmed.ends.2 first.ne_nil before
    | cons next tokens ih =>
      cases spells with
      | @cons _ _ before lexeme _ all first later =>
        obtain ⟨kept, trailing, rfl, after, spelled, solid, nonempty⟩ := ih later
        refine ⟨before ++ (lexeme ++ kept), trailing, by simp, after, .cons all first spelled, ?_,
          by simp [nonempty]⟩
        rw [← List.append_assoc]
        exact trimEnd_append solid nonempty (before ++ lexeme)
  obtain ⟨kept, trailing, rfl, after, spelled, solid, nonempty⟩ := parts
  rw [trimEnd_blank after, solid]
  exact ⟨spelled, nonempty⟩

end Spells

/-- **A text spells the tokens that are read from it.** -/
theorem spells_of_tokensFrom {offset : Nat} {text : List Char} {tokens : List Spanned}
    (read : tokensFrom offset text = .ok tokens) : Spells (tokens.map Spanned.token) text := by
  fun_induction tokensFrom offset text generalizing tokens with
  | case1 =>
    cases read
    exact .nil (by simp)
  | case2 _ c rest blank ih => exact (ih read).blank blank
  | case3 => cases read
  | case4 _ c rest _ taken token =>
    rename_i ih
    obtain ⟨others, later, same⟩ := exists_of_map_eq_ok read
    cases same
    obtain ⟨lexeme, split, first⟩ := lexeme_of_readToken token
    have whole := Spells.cons (List.forall_mem_nil _) first (ih later)
    rw [List.nil_append, ← split] at whole
    exact whole

end DataBind.Expr
