/-
**How strings are written.**

Between the quotes of a string a character stands for itself, or it is written behind a backslash:
as it is, if it is the quote or a backslash, by its letter, or by the four hexadecimal digits of its
code point. So every string can be written in either quote, and it is read back whatever follows
the closing quote. The reader takes a little more than that: behind a backslash any character
without a meaning of its own, and a plus sign with three digits in the place of four.

* `HexDigits`, `hexNumber?_eq_some_iff`: hexadecimal digits and the number they denote;
* `codePoint?_eq_some_iff`: what stands for a character behind `\u`;
* `Form`, `Lenient`: the ways of writing a character, and those that the reader takes;
* `written_escaped`, `exists_form_digits`: every string has a form, small characters have digits;
* `readString_written`, `exists_written`: a string is read from just the texts in these forms;
* `readString_malformed`: other text behind `\u` is a fault.
-/

import DataBind.Expr.Tokenize
import Mathlib.Data.List.Basic
import Mathlib.Tactic.Ring

namespace DataBind.Expr

open DataBind.Text

/-! ### Hexadecimal digits -/

/-- A character is the hexadecimal digit of a value, in either case. -/
def IsHexDigit (c : Char) (value : Nat) : Prop :=
  "0123456789abcdef".toList[value]? = some c ∨ "0123456789ABCDEF".toList[value]? = some c

instance (c : Char) (value : Nat) : Decidable (IsHexDigit c value) :=
  inferInstanceAs (Decidable (_ ∨ _))

/-- Hexadecimal digits and the number they denote, the highest digit first. -/
inductive HexDigits : List Char → Nat → Prop
  | nil : HexDigits [] 0
  | cons {c : Char} {rest : List Char} {digit value : Nat} : IsHexDigit c digit →
      HexDigits rest value → HexDigits (c :: rest) (digit * 16 ^ rest.length + value)

/-- The digits are those in the table. -/
theorem hexValue?_eq_some_iff {c : Char} {value : Nat} :
    Number.hexValue? c = some value ↔ IsHexDigit c value := by
  constructor
  · intro found
    have table : ∀ n < 103, ∀ value ∈ Number.hexValue? (Char.ofNat n),
        IsHexDigit (Char.ofNat n) value := by
      decide
    have small : c.toNat < 103 := by
      unfold Number.hexValue? at found
      split at found
      · rename_i digit
        have bound : c.toNat ≤ '9'.toNat := (Char.isDigit_iff_toNat.mp digit).2
        exact lt_of_le_of_lt bound (by decide)
      · split at found
        · rename_i lower
          rw [Bool.and_eq_true, decide_eq_true_eq, decide_eq_true_eq] at lower
          exact lt_of_le_of_lt (Char.le_def.mp lower.2) (by decide)
        · split at found
          · rename_i upper
            rw [Bool.and_eq_true, decide_eq_true_eq, decide_eq_true_eq] at upper
            exact lt_of_le_of_lt (Char.le_def.mp upper.2) (by decide)
          · cases found
    have own := table c.toNat small value (by rw [Char.ofNat_toNat]; exact found)
    rwa [Char.ofNat_toNat] at own
  · intro digit
    have lower : ∀ entry ∈ "0123456789abcdef".toList.zipIdx,
        Number.hexValue? entry.1 = some entry.2 := by decide
    have upper : ∀ entry ∈ "0123456789ABCDEF".toList.zipIdx,
        Number.hexValue? entry.1 = some entry.2 := by decide
    rw [IsHexDigit, ← List.mk_mem_zipIdx_iff_getElem?, ← List.mk_mem_zipIdx_iff_getElem?] at digit
    exact digit.elim (lower (c, value)) (upper (c, value))

/-- **Digits denote the number of their places.** -/
theorem hexNumber?_eq_some_iff {digits : List Char} {value : Nat} :
    Number.hexNumber? digits = some value ↔ digits ≠ [] ∧ HexDigits digits value := by
  have fold : ∀ (digits : List Char) (start value : Nat),
      digits.foldlM (fun value c => (Number.hexValue? c).map (16 * value + ·)) start = some value ↔
        ∃ low, HexDigits digits low ∧ value = start * 16 ^ digits.length + low := by
    intro digits
    induction digits with
    | nil =>
      intro start value
      rw [List.foldlM_nil]
      constructor
      · intro same
        cases same
        exact ⟨0, .nil, by simp⟩
      · rintro ⟨low, denoted, rfl⟩
        cases denoted
        simp
    | cons c rest ih =>
      intro start value
      rw [List.foldlM_cons]
      constructor
      · intro read
        obtain ⟨next, first, later⟩ := Option.bind_eq_some_iff.mp read
        obtain ⟨digit, shown, rfl⟩ := Option.map_eq_some_iff.mp first
        obtain ⟨low, denoted, rfl⟩ := (ih _ _).mp later
        refine ⟨_, .cons (hexValue?_eq_some_iff.mp shown) denoted, ?_⟩
        rw [List.length_cons]
        ring
      · rintro ⟨_, denoted, rfl⟩
        cases denoted with
        | @cons _ _ digit low shown denoted =>
          refine Option.bind_eq_some_iff.mpr
            ⟨16 * start + digit, ?_, (ih _ _).mpr ⟨low, denoted, ?_⟩⟩
          · rw [hexValue?_eq_some_iff.mpr shown]
            rfl
          · rw [List.length_cons]
            ring
  unfold Number.hexNumber?
  cases digits with
  | nil => simp
  | cons c rest =>
    rw [if_neg (by simp), fold]
    simp

/-- Every number that is small enough has so many digits. -/
theorem exists_hexDigits (count : Nat) {value : Nat} (small : value < 16 ^ count) :
    ∃ digits, digits.length = count ∧ HexDigits digits value := by
  induction count generalizing value with
  | zero =>
    rw [Nat.pow_zero, Nat.lt_one_iff] at small
    subst small
    exact ⟨[], rfl, .nil⟩
  | succ count ih =>
    obtain ⟨rest, length, denoted⟩ := ih (Nat.mod_lt value (Nat.pow_pos (by decide)))
    have high : value / 16 ^ count < 16 := by
      rw [Nat.div_lt_iff_lt_mul (Nat.pow_pos (by decide)), ← Nat.pow_succ']
      exact small
    obtain ⟨digit, first⟩ : ∃ digit, IsHexDigit digit (value / 16 ^ count) :=
      ⟨_, Or.inl (List.getElem?_eq_getElem high)⟩
    refine ⟨digit :: rest, by rw [List.length_cons, length], ?_⟩
    have whole := HexDigits.cons first denoted
    rwa [length, Nat.div_add_mod'] at whole

/-! ### Code points -/

/-- Four hexadecimal digits of the code point of a character. -/
def FourDigits (text : List Char) (c : Char) : Prop :=
  text.length = 4 ∧ HexDigits text c.toNat

/-- A plus sign and three hexadecimal digits of the code point of a character. -/
def SignedDigits (text : List Char) (c : Char) : Prop :=
  ∃ digits, text = '+' :: digits ∧ digits.length = 3 ∧ HexDigits digits c.toNat

theorem codePoint?_eq_some {text : List Char} {c : Char} : codePoint? text = some c ↔
    withoutPlus text ≠ [] ∧ HexDigits (withoutPlus text) c.toNat := by
  rw [← hexNumber?_eq_some_iff, codePoint?, Option.bind_eq_some_iff]
  simp only [Bool.or_eq_true, Bool.and_eq_true, decide_eq_true_eq]
  constructor
  · rintro ⟨point, read, valid⟩
    split at valid
    · rename_i scalar
      cases valid
      have same : (Char.ofNat point).toNat = point := by
        rw [Char.ofNat, dif_pos (show point.isValidChar from scalar)]
        rfl
      rw [read, same]
    · cases valid
  · intro read
    have scalar : c.toNat < 0xd800 ∨ 0xe000 ≤ c.toNat ∧ c.toNat < 0x110000 := c.valid
    exact ⟨c.toNat, read, by rw [if_pos scalar, Char.ofNat_toNat]⟩

/-- **Four characters stand for a character** if they are the digits of its code point, or a plus
sign and three digits. -/
theorem codePoint?_eq_some_iff {text : List Char} {c : Char} (four : text.length = 4) :
    codePoint? text = some c ↔ FourDigits text c ∨ SignedDigits text c := by
  have sign : ∀ digits value, ¬ HexDigits ('+' :: digits) value := by
    rintro digits value (_ | ⟨digit, _⟩)
    cases hexValue?_eq_some_iff.mpr digit
  rw [codePoint?_eq_some]
  unfold withoutPlus
  split
  · rename_i digits
    rw [List.length_cons, Nat.add_right_cancel_iff] at four
    constructor
    · rintro ⟨_, denoted⟩
      exact Or.inr ⟨digits, rfl, four, denoted⟩
    · rintro (⟨_, denoted⟩ | ⟨others, same, _, denoted⟩)
      · exact absurd denoted (sign _ _)
      · cases same
        refine ⟨?_, denoted⟩
        rintro rfl
        cases four
  · rename_i unsigned
    constructor
    · rintro ⟨_, denoted⟩
      exact Or.inl ⟨four, denoted⟩
    · rintro (⟨_, denoted⟩ | ⟨digits, same, _⟩)
      · refine ⟨?_, denoted⟩
        rintro rfl
        cases four
      · exact absurd same (unsigned digits)

theorem SignedDigits.length {text : List Char} {c : Char} (signed : SignedDigits text c) :
    text.length = 4 := by
  obtain ⟨digits, rfl, three, _⟩ := signed
  rw [List.length_cons, three]

theorem HexDigits.isSome_of_mem {digits : List Char} {value : Nat}
    (denoted : HexDigits digits value) {c : Char} (member : c ∈ digits) :
    (Number.hexValue? c).isSome := by
  induction denoted with
  | nil => cases member
  | cons digit _ ih =>
    rcases List.mem_cons.mp member with rfl | later
    · rw [hexValue?_eq_some_iff.mpr digit]
      rfl
    · exact ih later

/-- The characters that a code point can be written with. -/
theorem numerals_of_codePoint? {text : List Char} {point : Char}
    (found : codePoint? text = some point) {c : Char} (member : c ∈ text) :
    c = '+' ∨ (Number.hexValue? c).isSome := by
  have digits := (codePoint?_eq_some.mp found).2
  unfold withoutPlus at digits
  split at digits
  · exact (List.mem_cons.mp member).imp_right digits.isSome_of_mem
  · exact Or.inr (digits.isSome_of_mem member)

/-! ### The forms of a character -/

/-- The quotes that strings stand in. -/
def isStringQuote (c : Char) : Bool :=
  c == '"' || c == '\x27'

/-- The letters that stand for characters behind a backslash, with the characters. -/
def letters : List (Char × Char) :=
  [('n', Char.ofNat 10), ('t', Char.ofNat 9), ('r', Char.ofNat 13), ('b', Char.ofNat 8),
    ('f', Char.ofNat 12), ('v', Char.ofNat 11), ('0', Char.ofNat 0)]

/-- **The ways of writing a character** of a string. -/
inductive Form (quote : Char) (c : Char) : List Char → Prop
  | plain : c ≠ quote → c ≠ '\\' → Form quote c [c]
  | escaped : c = quote ∨ c = '\\' → Form quote c ['\\', c]
  | letter {mark : Char} : (mark, c) ∈ letters → Form quote c ['\\', mark]
  | digits {digits : List Char} : FourDigits digits c → Form quote c ('\\' :: 'u' :: digits)

/-- The ways of writing a character that the reader takes. -/
inductive Lenient (quote : Char) (c : Char) : List Char → Prop
  | form {text : List Char} : Form quote c text → Lenient quote c text
  /-- Behind a backslash a character without another meaning stands for itself. -/
  | bare : c ≠ 'u' → c ∉ letters.map Prod.fst → Lenient quote c ['\\', c]
  | signed {digits : List Char} : SignedDigits digits c →
      Lenient quote c ('\\' :: 'u' :: digits)

/-- A string, and a text in which each of its characters is written in some form. -/
inductive Written (form : Char → List Char → Prop) : List Char → List Char → Prop
  | nil : Written form [] []
  | cons {c : Char} {piece value text : List Char} : form c piece → Written form value text →
      Written form (c :: value) (piece ++ text)

theorem Written.mono {form other : Char → List Char → Prop} {value text : List Char}
    (written : Written form value text) (implies : ∀ c piece, form c piece → other c piece) :
    Written other value text := by
  induction written with
  | nil => exact .nil
  | cons first _ ih => exact .cons (implies _ _ first) ih

/-- A string with backslashes before its quotes and backslashes. -/
def escaped (quote : Char) (value : List Char) : List Char :=
  value.flatMap fun c => if c = quote ∨ c = '\\' then ['\\', c] else [c]

/-- **Every string can be written** with backslashes before its quotes and backslashes. -/
theorem written_escaped (quote : Char) (value : List Char) :
    Written (Form quote) value (escaped quote value) := by
  induction value with
  | nil => exact .nil
  | cons c value ih =>
    rw [escaped, List.flatMap_cons]
    refine .cons ?_ ih
    split
    · rename_i special
      exact .escaped special
    · rename_i plain
      rw [not_or] at plain
      exact .plain plain.1 plain.2

/-- A character of at most four digits can be written with four. -/
theorem exists_form_digits (quote : Char) {c : Char} (small : c.toNat < 0x10000) :
    ∃ digits, Form quote c ('\\' :: 'u' :: digits) := by
  obtain ⟨digits, length, denoted⟩ := exists_hexDigits 4 small
  exact ⟨digits, .digits ⟨length, denoted⟩⟩

/-! ### Reading what is written -/

theorem escapeOf_of_mem {mark c : Char} (member : (mark, c) ∈ letters) : escapeOf mark = c := by
  have table : ∀ entry ∈ letters, escapeOf entry.1 = entry.2 := by decide
  exact table _ member

theorem escapeOf_of_not_mem {c : Char} (other : c ∉ letters.map Prod.fst) : escapeOf c = c := by
  simp only [letters, List.map_cons, List.map_nil, List.mem_cons, List.not_mem_nil, or_false,
    not_or] at other
  unfold escapeOf
  split <;> simp_all

/-- What stands behind a backslash, other than `u`. -/
theorem readEscape_of_ne {mark : Char} (other : mark ≠ 'u') (rest : List Char) :
    readEscape (mark :: rest) = .ok (escapeOf mark, rest) := by
  simp [readEscape]

theorem readEscape_digits {digits : List Char} {c : Char} (four : digits.length = 4)
    (found : codePoint? digits = some c) (rest : List Char) :
    readEscape ('u' :: (digits ++ rest)) = .ok (c, rest) := by
  simp only [readEscape, List.take_left' four, List.drop_left' four, found]

/-- A string goes on behind an escape. -/
theorem readString_escape {quote : Char} (slash : '\\' ≠ quote) (rest : List Char) :
    readString quote ('\\' :: rest) = (readEscape rest).bind fun (point, after) =>
      (readString quote after).map fun (inner, rest) => (point :: inner, rest) := by
  rw [readString, if_neg slash, if_pos rfl]
  split
  · rename_i read
    rw [read]
    rfl
  · rename_i read
    simp only [read]
    rfl

section Quoted

variable {quote : Char} (mark : isStringQuote quote = true)

include mark

theorem quote_cases : quote = '"' ∨ quote = '\x27' := by
  rwa [isStringQuote, Bool.or_eq_true, beq_iff_eq, beq_iff_eq] at mark

theorem slash_ne_quote : '\\' ≠ quote := by
  rcases quote_cases mark with rfl | rfl <;> decide

/-- The string that is read goes on behind an escape. -/
theorem readString_slash {point : Char} {text after : List Char}
    (read : readEscape text = .ok (point, after)) : readString quote ('\\' :: text) =
      (readString quote after).map fun (inner, rest) => (point :: inner, rest) := by
  rw [readString_escape (slash_ne_quote mark), read]
  rfl

/-- An escape that fails makes the string fail. -/
theorem readString_slash_failed {fault : SyntaxFault} {text : List Char}
    (failed : readEscape text = .error fault) : readString quote ('\\' :: text) = .error fault := by
  rw [readString_escape (slash_ne_quote mark), failed]
  rfl

/-- **Each form is read as its character.** -/
theorem readString_piece {c : Char} {piece : List Char} (form : Lenient quote c piece)
    (rest : List Char) : readString quote (piece ++ rest) =
      (readString quote rest).map fun (inner, rest) => (c :: inner, rest) := by
  have ends : quote ≠ 'u' ∧ quote ∉ letters.map Prod.fst := by
    rcases quote_cases mark with rfl | rfl <;> decide
  cases form with
  | form form =>
    cases form with
    | plain different noSlash =>
      rw [List.singleton_append, readString, if_neg different, if_neg noSlash]
    | escaped special =>
      refine readString_slash mark ?_
      rcases special with rfl | rfl
      · exact (readEscape_of_ne ends.1 rest).trans (by rw [escapeOf_of_not_mem ends.2])
      · rfl
    | @letter letter member =>
      have other : letter ≠ 'u' := by
        rintro rfl
        have table : 'u' ∉ letters.map Prod.fst := by decide
        exact table (List.mem_map_of_mem (f := Prod.fst) member)
      refine readString_slash mark ?_
      exact (readEscape_of_ne other rest).trans (by rw [escapeOf_of_mem member])
    | digits four =>
      refine readString_slash mark (readEscape_digits four.1 ?_ rest)
      exact (codePoint?_eq_some_iff four.1).mpr (Or.inl four)
  | bare other free =>
    refine readString_slash mark ?_
    exact (readEscape_of_ne other rest).trans (by rw [escapeOf_of_not_mem free])
  | signed signed =>
    refine readString_slash mark (readEscape_digits signed.length ?_ rest)
    exact (codePoint?_eq_some_iff signed.length).mpr (Or.inr signed)

/-- What is written in forms is read before what follows it. -/
theorem readString_append {value text : List Char} (written : Written (Lenient quote) value text)
    (rest : List Char) : readString quote (text ++ rest) =
      (readString quote rest).map fun (inner, rest) => (value ++ inner, rest) := by
  induction written with
  | nil =>
    rw [List.nil_append]
    cases readString quote rest <;> rfl
  | cons form _ ih =>
    rw [List.append_assoc, readString_piece mark form, ih]
    cases readString quote rest <;> rfl

/-- **A string is read from what is written**, up to the closing quote. -/
theorem readString_written {value text : List Char} (written : Written (Lenient quote) value text)
    (rest : List Char) : readString quote (text ++ quote :: rest) = .ok (value, rest) := by
  rw [readString_append mark written, readString, if_pos rfl]
  show Except.ok (value ++ [], rest) = _
  rw [List.append_nil]

end Quoted

/-- What an escape takes is a form of its character. -/
theorem exists_lenient (quote : Char) {c : Char} {text after : List Char}
    (read : readEscape text = .ok (c, after)) (more : after ≠ []) :
    ∃ piece, text = piece ++ after ∧ Lenient quote c ('\\' :: piece) := by
  unfold readEscape at read
  split at read
  · cases read
  · rename_i rest
    split at read
    · cases read
    · rename_i found
      cases read
      have four : (rest.take 4).length = 4 := by
        have length := List.length_pos_iff.mpr more
        rw [List.length_drop] at length
        rw [List.length_take]
        omega
      refine ⟨'u' :: rest.take 4, by rw [List.cons_append, List.take_append_drop], ?_⟩
      rcases (codePoint?_eq_some_iff four).mp found with digits | signed
      · exact .form (.digits digits)
      · exact .signed signed
  · rename_i mark rest unicode
    cases read
    refine ⟨[mark], rfl, ?_⟩
    by_cases letter : mark ∈ letters.map Prod.fst
    · obtain ⟨⟨_, denoted⟩, member, rfl⟩ := List.mem_map.mp letter
      rw [escapeOf_of_mem member]
      exact .form (.letter member)
    · rw [escapeOf_of_not_mem letter]
      refine .bare ?_ letter
      rintro rfl
      exact unicode rfl

/-- **What is read as a string is written in forms** of its characters. -/
theorem exists_written {quote : Char} {source value rest : List Char}
    (read : readString quote source = .ok (value, rest)) :
    ∃ text, source = text ++ quote :: rest ∧ Written (Lenient quote) value text := by
  fun_induction readString quote source generalizing value rest with
  | case1 => cases read
  | case2 =>
    cases read
    exact ⟨[], rfl, .nil⟩
  | case3 => cases read
  | case4 tail point after escape _ different ih =>
    obtain ⟨⟨inner, other⟩, result, same⟩ := exists_of_map_eq_ok read
    cases same
    have more : after ≠ [] := by
      rintro rfl
      exact absurd (readString_length result) (Nat.not_lt_zero _)
    obtain ⟨piece, rfl, form⟩ := exists_lenient quote escape more
    obtain ⟨text, rfl, written⟩ := ih result
    exact ⟨'\\' :: piece ++ text, by simp, .cons form written⟩
  | case5 c tail different noSlash ih =>
    obtain ⟨⟨inner, other⟩, result, same⟩ := exists_of_map_eq_ok read
    cases same
    obtain ⟨text, rfl, written⟩ := ih result
    exact ⟨[c] ++ text, rfl, .cons (.form (.plain different noSlash)) written⟩

/-- **Other text behind `\u` is a fault** of the string. -/
theorem readString_malformed {quote : Char} (mark : isStringQuote quote = true)
    {value text other : List Char} (written : Written (Lenient quote) value text)
    (malformed : ∀ c, ¬ FourDigits (other.take 4) c ∧ ¬ SignedDigits (other.take 4) c) :
    ∃ fault, readString quote (text ++ '\\' :: 'u' :: other) = .error fault ∧
      (4 ≤ other.length → fault = .invalidEscape (String.ofList (other.take 4))) := by
  have failed : ∃ fault, readString quote ('\\' :: 'u' :: other) = .error fault ∧
      (4 ≤ other.length → fault = .invalidEscape (String.ofList (other.take 4))) := by
    cases found : codePoint? (other.take 4) with
    | none =>
      have escape : readEscape ('u' :: other) =
          .error (.invalidEscape (String.ofList (other.take 4))) := by
        simp only [readEscape, found]
      exact ⟨_, readString_slash_failed mark escape, fun _ => rfl⟩
    | some c =>
      have short : ¬ 4 ≤ other.length := fun long =>
        ((codePoint?_eq_some_iff (List.length_take_of_le long)).mp found).elim
          (malformed c).1 (malformed c).2
      -- the digits end with the source, and the string with them
      have escape : readEscape ('u' :: other) = .ok (c, []) := by
        simp only [readEscape, found, List.drop_of_length_le (le_of_not_ge short)]
      refine ⟨.unterminatedString, ?_, fun long => absurd long short⟩
      rw [readString_slash mark escape, readString]
      rfl
  obtain ⟨fault, failed, cause⟩ := failed
  exact ⟨fault, by rw [readString_append mark written, failed]; rfl, cause⟩

end DataBind.Expr
