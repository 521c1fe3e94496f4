/-
**The texts of numbers.**

A number is digits with an optional point among or around them, at least one digit, and an optional
exponent. The longest number at the start of a text has this form, so that it denotes a double, and
it stays the longest wherever no more of its characters follow it.

* `IsFraction`, `IsExponent`, `IsNumber`: the forms of a number and of its parts;
* `isNumber_spanNumber`: where a number starts, the longest one has its form;
* `spanNumber_append_stop`: a number is the longest where none of its characters follows;
* `exists_readNumber?`: a number denotes a double.
-/

import DataBind.Proofs.Expr.Spelling
import DataBind.Proofs.Text.Cutting

namespace DataBind.Expr

open DataBind.Text

/-- A point and the digits behind it, or nothing. -/
inductive IsFraction : List Char → Prop
  | none : IsFraction []
  | some {digits : List Char} : (∀ c ∈ digits, c.isDigit = true) → IsFraction ('.' :: digits)

/-- The mark of an exponent with an optional sign and digits, or nothing. -/
inductive IsExponent : List Char → Prop
  | none : IsExponent []
  | some {mark : Char} {sign digits : List Char} : mark = 'e' ∨ mark = 'E' →
      sign = [] ∨ sign = ['+'] ∨ sign = ['-'] → digits ≠ [] →
      (∀ c ∈ digits, c.isDigit = true) → IsExponent (mark :: (sign ++ digits))

/-- **The texts of numbers.** There is a digit before the point or behind it. -/
inductive IsNumber : List Char → Prop
  | intro {whole fraction exponent : List Char} : (∀ c ∈ whole, c.isDigit = true) →
      IsFraction fraction → IsExponent exponent → whole ≠ [] ∨ 2 ≤ fraction.length →
      IsNumber (whole ++ (fraction ++ exponent))

/-! ### The longest number -/

theorem isExponent_spanExponent (text : List Char) : IsExponent (spanExponent text).1 := by
  have digits : ∀ {mark : Char} {sign unsigned : List Char}, (mark == 'e' || mark == 'E') = true →
      sign = [] ∨ sign = ['+'] ∨ sign = ['-'] →
      ¬ (Number.spanDigits unsigned).1.isEmpty = true →
      IsExponent (mark :: sign ++ (Number.spanDigits unsigned).1) := by
    intro mark sign unsigned letter signed nonempty
    rw [Bool.or_eq_true, beq_iff_eq, beq_iff_eq] at letter
    exact .some letter signed (fun empty => nonempty (List.isEmpty_iff.mpr empty))
      fun c member => List.mem_takeWhile_imp member
  unfold spanExponent
  split
  · rename_i mark after
    split
    · rename_i letter
      split
      rename_i sign unsigned parts
      have signed : sign = [] ∨ sign = ['+'] ∨ sign = ['-'] := by
        split at parts <;> cases parts <;> simp
      simp only
      split
      · exact .none
      · rename_i nonempty
        exact digits letter signed nonempty
    · exact .none
  · exact .none

/-- **Where a number starts, the longest one has its form.** -/
theorem isNumber_spanNumber {text : List Char} (starts : startsNumber text = true) :
    IsNumber (spanNumber text).1 := by
  have mantissa : ∃ whole fraction, (spanMantissa text).1 = whole ++ fraction ∧
      (∀ c ∈ whole, c.isDigit = true) ∧ IsFraction fraction ∧
      (whole ≠ [] ∨ 2 ≤ fraction.length) := by
    have digits : ∀ {text : List Char}, ∀ c ∈ (Number.spanDigits text).1, c.isDigit = true :=
      fun c member => List.mem_takeWhile_imp member
    have first : (Number.spanDigits text).1 ≠ [] ∨
        ∃ d rest, (Number.spanDigits text).2 = '.' :: d :: rest ∧ d.isDigit = true := by
      unfold startsNumber at starts
      split at starts
      · rename_i d rest
        exact Or.inr ⟨d, rest, by simp [Number.spanDigits], starts⟩
      · exact Or.inl (by simp [Number.spanDigits, starts])
      · cases starts
    unfold spanMantissa
    simp only
    split
    · rename_i after point
      refine ⟨_, _, rfl, digits, .some digits, ?_⟩
      refine first.imp_right ?_
      rintro ⟨d, rest, same, digit⟩
      rw [point] at same
      cases same
      simp [Number.spanDigits, digit]
    · rename_i other
      refine ⟨_, [], (List.append_nil _).symm, digits, .none, Or.inl ?_⟩
      rcases first with nonempty | ⟨d, rest, same, _⟩
      · exact nonempty
      · exact absurd same (other _)
  obtain ⟨whole, fraction, split, digits, point, some⟩ := mantissa
  rw [spanNumber]
  simp only [split, List.append_assoc]
  exact .intro digits point (isExponent_spanExponent _) some

/-- Digits end where another character follows. -/
theorem spanDigits_append_stop {digits rest : List Char} (all : ∀ c ∈ digits, c.isDigit = true)
    (stop : ∀ c ∈ rest.head?, c.isDigit = false) :
    Number.spanDigits (digits ++ rest) = (digits, rest) := by
  rw [Number.spanDigits, takeWhile_append_stop all stop, dropWhile_append_stop all stop]

theorem spanMantissa_append_stop {whole fraction rest : List Char}
    (digits : ∀ c ∈ whole, c.isDigit = true) (point : IsFraction fraction)
    (stop : ∀ c ∈ rest.head?, c.isDigit = false ∧ c ≠ '.') :
    spanMantissa (whole ++ (fraction ++ rest)) = (whole ++ fraction, rest) := by
  have ends : ∀ c ∈ rest.head?, c.isDigit = false := fun c member => (stop c member).1
  cases point with
  | none =>
    rw [List.nil_append, List.append_nil, spanMantissa, spanDigits_append_stop digits ends]
    simp only
    split
    · exact absurd rfl (stop '.' rfl).2
    · rfl
  | @some after others =>
    have front : ∀ c ∈ ('.' :: after ++ rest).head?, c.isDigit = false := by
      rintro c ⟨⟩
      rfl
    rw [spanMantissa, spanDigits_append_stop digits front]
    simp only [List.cons_append, spanDigits_append_stop others ends]

theorem spanExponent_append_stop {exponent rest : List Char} (form : IsExponent exponent)
    (stop : ∀ c ∈ rest.head?, isNumeral c = false) :
    spanExponent (exponent ++ rest) = (exponent, rest) := by
  have ends : ∀ c ∈ rest.head?, c.isDigit = false := by
    intro c member
    have other := stop c member
    simp only [isNumeral, Bool.or_eq_false_iff] at other
    exact other.1.1.1.1.1
  cases form with
  | none =>
    cases rest with
    | nil => rfl
    | cons c others =>
      have other := stop c rfl
      simp only [isNumeral, Bool.or_eq_false_iff] at other
      have unmarked : ¬(c == 'e' || c == 'E') = true := by simp [other.1.1.1.2, other.1.1.2]
      unfold spanExponent
      simp only [List.nil_append, unmarked]
      rfl
  | @some mark sign digits letter signed nonempty all =>
    have span := spanDigits_append_stop all ends
    have marked : (mark == 'e' || mark == 'E') = true := by
      rcases letter with rfl | rfl <;> rfl
    unfold spanExponent
    rcases signed with rfl | rfl | rfl
    · -- a digit is no sign
      cases digits with
      | nil => exact absurd rfl nonempty
      | cons d digits =>
        have digit := all d List.mem_cons_self
        have plus : d ≠ '+' := by rintro rfl; cases digit
        have minus : d ≠ '-' := by rintro rfl; cases digit
        rw [List.cons_append] at span
        simp [marked, plus, minus, span]
    · simp [marked, span, nonempty]
    · simp [marked, span, nonempty]

/-- **A number is the longest** where none of its characters follows. -/
theorem spanNumber_append_stop {text rest : List Char} (number : IsNumber text)
    (stop : ∀ c ∈ rest.head?, isNumeral c = false) : spanNumber (text ++ rest) = (text, rest) := by
  obtain @⟨whole, fraction, exponent, digits, point, form, _⟩ := number
  have ends : ∀ c ∈ (exponent ++ rest).head?, c.isDigit = false ∧ c ≠ '.' := by
    intro c member
    cases form with
    | none =>
      have other := stop c member
      simp only [isNumeral, Bool.or_eq_false_iff, beq_eq_false_iff_ne] at other
      exact ⟨other.1.1.1.1.1, other.1.1.1.1.2⟩
    | some letter =>
      cases member
      rcases letter with rfl | rfl <;> decide
  have mantissa := spanMantissa_append_stop digits point ends
  rw [spanNumber, List.append_assoc, List.append_assoc, mantissa]
  simp only [spanExponent_append_stop form stop, List.append_assoc]

/-! ### What a number denotes -/

/-- A number starts with a digit, or with a point and a digit. -/
theorem IsNumber.starts {text : List Char} (number : IsNumber text) (rest : List Char) :
    startsNumber (text ++ rest) = true ∧
      ∃ c ∈ text.head?, c.isDigit = true ∨ c = '.' := by
  obtain @⟨whole, fraction, exponent, digits, point, _, some⟩ := number
  cases whole with
  | cons c whole =>
    have digit := digits c List.mem_cons_self
    refine ⟨?_, c, rfl, Or.inl digit⟩
    have other : c ≠ '.' := by rintro rfl; cases digit
    simp [startsNumber, other, digit]
  | nil =>
    cases point with
    | none => simp at some
    | @some fraction others =>
      cases fraction with
      | nil => simp at some
      | cons d fraction => exact ⟨others d List.mem_cons_self, '.', rfl, Or.inr rfl⟩

theorem exists_readExponent? {exponent : List Char} (form : IsExponent exponent) :
    ∃ power, Number.readExponent? exponent = some power := by
  cases form with
  | none => exact ⟨0, rfl⟩
  | @some mark sign digits letter signed nonempty all =>
    have run : ∀ {text : List Char}, (Number.takeSign text).2 = digits →
        ∃ power, Number.readExponent?.signedDigits text = some power := by
      intro text same
      have read : ((Number.takeSign text).2.isEmpty ||
          !(Number.takeSign text).2.all Char.isDigit) = false := by
        rw [same]
        simpa [nonempty] using all
      unfold Number.readExponent?.signedDigits
      simp only [read]
      exact ⟨_, rfl⟩
    have unsigned : (Number.takeSign (sign ++ digits)).2 = digits := by
      rcases signed with rfl | rfl | rfl
      · cases digits with
        | nil => exact absurd rfl nonempty
        | cons d digits =>
          have digit := all d List.mem_cons_self
          have plus : d ≠ '+' := by rintro rfl; cases digit
          have minus : d ≠ '-' := by rintro rfl; cases digit
          simp [Number.takeSign, plus, minus]
      · rfl
      · rfl
    rcases letter with rfl | rfl
    · exact run unsigned
    · exact run unsigned

/-- **A number denotes a double.** -/
theorem exists_readNumber? {text : List Char} (number : IsNumber text) :
    ∃ amount, Number.readNumber? text = some amount := by
  have unsigned : Number.takeSign text = (false, text) := by
    obtain ⟨_, c, first, start⟩ := number.starts []
    cases text with
    | nil => cases first
    | cons d others =>
      cases first
      have plus : c ≠ '+' := by rintro rfl; exact absurd start (by decide)
      have minus : c ≠ '-' := by rintro rfl; exact absurd start (by decide)
      simp [Number.takeSign, plus, minus]
  have magnitude : ∃ amount, Number.readMagnitude? text = some amount := by
    obtain @⟨whole, fraction, exponent, digits, point, form, some⟩ := number
    obtain ⟨power, read⟩ := exists_readExponent? form
    have ends : ∀ c ∈ exponent.head?, c.isDigit = false ∧ c ≠ '.' := by
      intro c member
      cases form with
      | none => cases member
      | some letter =>
        cases member
        rcases letter with rfl | rfl <;> decide
    have stop : ∀ c ∈ (fraction ++ exponent).head?, c.isDigit = false := by
      intro c member
      cases point with
      | none => exact (ends c member).1
      | some => cases member; rfl
    unfold Number.readMagnitude?
    rw [spanDigits_append_stop digits stop]
    cases point with
    | none =>
      have start : whole ≠ [] := some.resolve_right (by simp)
      cases exponent with
      | nil => simp [start, read]
      | cons mark after =>
        have mark := (ends mark rfl).2
        simp [start, mark, read]
    | @some after others =>
      have start : whole ≠ [] ∨ after ≠ [] := some.imp_right (by rintro long rfl; simp at long)
      have span := spanDigits_append_stop others fun c member => (ends c member).1
      simp [span, read]
      exact fun empty => start.resolve_left (not_not_intro empty)
  obtain ⟨amount, read⟩ := magnitude
  rw [Number.readNumber?, unsigned]
  simp only [read, Bool.false_eq_true, if_false]
  split_ifs <;> exact ⟨_, rfl⟩

end DataBind.Expr
