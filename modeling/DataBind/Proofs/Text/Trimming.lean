/-
**Trimmed text.**

Text is trimmed if it neither starts nor ends with white space. What trimming leaves is trimmed,
and text with white space around it is trimmed to what stands inside.

* `Trimmed`: a text that trimming leaves as it is;
* `trimmed_trim`: trimming leaves trimmed text;
* `exists_trim`: what is trimmed away is white space, before the text and behind it;
* `trim_append`: text that starts solid and ends trimmed is trimmed;
* `trim_padded`: spaces around trimmed text are trimmed away.
-/

import DataBind.Text.Blank
import Mathlib.Data.List.TakeWhile

namespace DataBind.Text

/-- A text without white space at either end. -/
def Trimmed (text : List Char) : Prop :=
  trim text = text

instance (text : List Char) : Decidable (Trimmed text) :=
  inferInstanceAs (Decidable (trim text = text))

theorem trimEnd_length_le (text : List Char) : (trimEnd text).length ≤ text.length := by
  calc (trimEnd text).length = (text.reverse.dropWhile isBlank).length := List.length_reverse
    _ ≤ text.reverse.length := (List.dropWhile_suffix _).length_le
    _ = text.length := List.length_reverse

/-- What trimming the start leaves starts solid. -/
theorem solid_of_trimStart {text rest : List Char} {c : Char} (start : trimStart text = c :: rest) :
    isBlank c = false := by
  have first := List.head?_dropWhile_not isBlank text
  have same : (text.dropWhile isBlank).head? = some c := by
    rw [show text.dropWhile isBlank = c :: rest from start]
    rfl
  rw [same] at first
  simpa using first

/-- Trimming twice at the start is trimming once. -/
theorem trimStart_trimStart (text : List Char) : trimStart (trimStart text) = trimStart text := by
  cases kept : trimStart text with
  | nil => rfl
  | cons c rest => exact trimStart_eq_self rest (solid_of_trimStart kept)

theorem trimEnd_trimEnd (text : List Char) : trimEnd (trimEnd text) = trimEnd text := by
  unfold trimEnd
  rw [List.reverse_reverse]
  exact congrArg List.reverse (trimStart_trimStart text.reverse)

/-- What stands behind a text that ends solid is all that trimming the end changes. -/
theorem trimEnd_append {back : List Char} (solid : trimEnd back = back) (nonempty : back ≠ [])
    (front : List Char) : trimEnd (front ++ back) = front ++ back := by
  have kept : back.reverse.dropWhile isBlank = back.reverse := by
    rw [← List.reverse_inj, List.reverse_reverse]
    exact solid
  rw [trimEnd, List.reverse_append, List.dropWhile_append, kept,
    if_neg (by rw [List.isEmpty_reverse, List.isEmpty_iff]; exact nonempty),
    List.reverse_append, List.reverse_reverse, List.reverse_reverse]

/-- White space at the end of a text has no effect on trimming its end. -/
theorem trimEnd_blank {blank : List Char} (all : ∀ c ∈ blank, isBlank c = true)
    (text : List Char) : trimEnd (text ++ blank) = trimEnd text := by
  rw [trimEnd, trimEnd, List.reverse_append,
    List.dropWhile_append_of_pos fun c member => all c (List.mem_reverse.mp member)]

/-- Trimming the end takes white space away. -/
theorem exists_trimEnd (text : List Char) :
    ∃ blank, text = trimEnd text ++ blank ∧ ∀ c ∈ blank, isBlank c = true := by
  refine ⟨(text.reverse.takeWhile isBlank).reverse, ?_, fun c member => ?_⟩
  · rw [trimEnd, ← List.reverse_append, List.takeWhile_append_dropWhile, List.reverse_reverse]
  · exact List.mem_takeWhile_imp (List.mem_reverse.mp member)

/-- Where not all of the end is white space, nothing before it is trimmed. -/
theorem trimEnd_append_of_ne_nil {back : List Char} (nonempty : trimEnd back ≠ [])
    (front : List Char) : trimEnd (front ++ back) = front ++ trimEnd back := by
  obtain ⟨blank, split, all⟩ := exists_trimEnd back
  have kept := trimEnd_append (trimEnd_trimEnd back) nonempty front
  rw [← trimEnd_blank all, List.append_assoc, ← split] at kept
  exact kept

/-- Trimming the end keeps text that starts solid. -/
theorem trimStart_trimEnd {text : List Char} (solid : trimStart text = text) :
    trimStart (trimEnd text) = trimEnd text := by
  cases text with
  | nil => rfl
  | cons c rest =>
    have first := solid_of_trimStart solid
    -- the first character is not trimmed from the end either
    obtain ⟨more, kept⟩ : ∃ more, trimEnd (c :: rest) = c :: more := by
      rw [trimEnd, List.reverse_cons, List.dropWhile_append]
      split
      · rw [List.dropWhile_cons_of_neg (by rw [first]; exact Bool.false_ne_true)]
        exact ⟨[], rfl⟩
      · exact ⟨_, List.reverse_concat⟩
    rw [kept]
    exact trimStart_eq_self more first

/-- **Trimming leaves trimmed text.** -/
theorem trimmed_trim (text : List Char) : Trimmed (trim text) := by
  unfold Trimmed trim
  rw [trimStart_trimEnd (trimStart_trimStart text), trimEnd_trimEnd]

namespace Trimmed

variable {text : List Char}

/-- Trimmed text keeps its start, and its end. -/
theorem ends (whole : Trimmed text) : trimStart text = text ∧ trimEnd text = text := by
  have start : trimStart text = text := by
    refine (List.dropWhile_suffix _).eq_of_length_le ?_
    calc text.length = (trim text).length := by rw [whole]
      _ ≤ (trimStart text).length := trimEnd_length_le _
  refine ⟨start, ?_⟩
  rw [← start]
  exact whole.trans start.symm

end Trimmed

/-- A text in which no character is white space is trimmed. -/
theorem trimmed_of_solid {text : List Char} (solid : ∀ c ∈ text, isBlank c = false) :
    Trimmed text := by
  have kept : ∀ text : List Char, (∀ c ∈ text, isBlank c = false) →
      text.dropWhile isBlank = text := by
    intro text solid
    cases text with
    | nil => rfl
    | cons c rest =>
      exact List.dropWhile_cons_of_neg (by rw [solid c List.mem_cons_self]; exact Bool.false_ne_true)
  unfold Trimmed trim
  rw [trimStart, kept text solid, trimEnd,
    kept _ fun c member => solid c (List.mem_reverse.mp member),
    List.reverse_reverse]

/-- **Text that starts solid and ends trimmed is trimmed.** -/
theorem trim_append {c : Char} {back : List Char} (solid : isBlank c = false)
    (ends : Trimmed back) (nonempty : back ≠ []) (front : List Char) :
    trim (c :: front ++ back) = c :: front ++ back := by
  rw [trim, List.cons_append, trimStart_eq_self _ solid, ← List.cons_append]
  exact trimEnd_append ends.ends.2 nonempty (c :: front)

/-- A text that starts and ends solid is trimmed. -/
theorem trim_enclosed {opener closer : Char} (starts : isBlank opener = false)
    (ends : isBlank closer = false) (inner : List Char) :
    trim (opener :: (inner ++ [closer])) = opener :: (inner ++ [closer]) := by
  have last : Trimmed [closer] := trimmed_of_solid (List.forall_mem_singleton.mpr ends)
  exact trim_append starts last (List.cons_ne_nil _ _) inner

/-- White space behind a text is trimmed away. -/
theorem trim_append_blank {blank : List Char} (all : ∀ c ∈ blank, isBlank c = true)
    (text : List Char) : trim (text ++ blank) = trim text := by
  rw [trim, trim, trimStart, trimStart, List.dropWhile_append]
  split
  · rename_i empty
    rw [List.isEmpty_iff.mp empty, List.dropWhile_eq_nil_iff.mpr all]
  · exact trimEnd_blank all _

/-- White space before a text is trimmed away. -/
theorem trim_blank_append {blank : List Char} (all : ∀ c ∈ blank, isBlank c = true)
    (text : List Char) : trim (blank ++ text) = trim text := by
  rw [trim, trim, trimStart, trimStart, List.dropWhile_append_of_pos all]

/-- **Trimming takes white space away**, before the text and behind it. -/
theorem exists_trim (text : List Char) :
    ∃ front back, text = front ++ (trim text ++ back) ∧ (∀ c ∈ front, isBlank c = true) ∧
      ∀ c ∈ back, isBlank c = true := by
  obtain ⟨back, split, all⟩ := exists_trimEnd (trimStart text)
  refine ⟨text.takeWhile isBlank, back, ?_, fun c member => List.mem_takeWhile_imp member, all⟩
  rw [trim, ← split, trimStart, List.takeWhile_append_dropWhile]

/-- **Trimming the end first** changes nothing. -/
theorem trim_trimEnd (text : List Char) : trim (trimEnd text) = trim text := by
  obtain ⟨blank, split, all⟩ := exists_trimEnd text
  rw [← trim_append_blank all, ← split]

/-- Spaces before a text are trimmed away. -/
theorem trim_space (text : List Char) : trim (' ' :: text) = trim text := by
  rw [trim, trim, show trimStart (' ' :: text) = trimStart text from
    List.dropWhile_cons_of_pos (by decide)]

theorem trimEnd_space (text : List Char) : trimEnd (text ++ [' ']) = trimEnd text := by
  rw [trimEnd, trimEnd, List.reverse_append]
  exact congrArg List.reverse (List.dropWhile_cons_of_pos (by decide))

/-- **Spaces around trimmed text are trimmed away.** -/
theorem trim_padded {text : List Char} (whole : Trimmed text) :
    trim (' ' :: (text ++ [' '])) = text := by
  rw [trim_space]
  cases text with
  | nil => decide
  | cons c rest =>
    have start : trimStart (c :: rest ++ [' ']) = c :: rest ++ [' '] :=
      trimStart_eq_self _ (solid_of_trimStart whole.ends.1)
    rw [trim, start, trimEnd_space]
    exact whole.ends.2

theorem trimStart_suffix (text : List Char) : trimStart text <:+ text :=
  List.dropWhile_suffix isBlank

theorem isInfix_trim (text : List Char) : trim text <:+: text := by
  have front : trimEnd (trimStart text) <+: trimStart text := by
    rw [← List.reverse_suffix, trimEnd, List.reverse_reverse]
    exact List.dropWhile_suffix _
  exact front.isInfix.trans (List.dropWhile_suffix _).isInfix

end DataBind.Text
