/-
**Slices at byte offsets.**

A cursor counts the bytes of a text in front of it. A slice may be taken only between offsets that
lie inside of the text and between two of its characters; a scan that takes any other slice stops
there.

* `cutAtByte?_eq_some_iff`: an offset cuts a text just if some part at its front has so many bytes;
* `isSome_cutAtByte?_iff`: these offsets are the valid positions of the text as a string;
* `slice_eq_badSlice_iff`: a slice can be taken between valid positions in order;
* `offsetOf`: the offset at which a rest of a text starts, with its slices;
* `offsetOf_lt`: a shorter rest starts further on;
* `skipBlank_offsetOf`, `takeSpan_offsetOf`: the cursor behind white space, and behind a span;
* `placeOf?`, `placeOfText?`: the offsets of what is searched.
-/

import DataBind.Proofs.Cursor.Loop
import DataBind.Proofs.Text.Cutting
import DataBind.Proofs.Text.Trimming
import DataBind.Text.Measure

namespace DataBind.Cursor

open DataBind.Text Scanned

/-! ### Slices -/

/-- The parts of a text before and after a byte offset; none if the offset is out of range or inside
of a character. -/
def cutAtByte? : Nat → List Char → Option (List Char × List Char)
  | 0, text => some ([], text)
  | _ + 1, [] => none
  | offset + 1, c :: rest =>
    if c.utf8Size ≤ offset + 1 then
      (cutAtByte? (offset + 1 - c.utf8Size) rest).map fun (front, back) => (c :: front, back)
    else none

section Slices

variable {ε : Type}

/-- The slice of a text from an offset on. -/
def sliceFrom (text : List Char) (start : Nat) : Scanned ε (List Char) :=
  match cutAtByte? start text with
  | some (_, rest) => pure rest
  | none => .badSlice

/-- The slice of a text up to an offset. -/
def sliceTo (text : List Char) (finish : Nat) : Scanned ε (List Char) :=
  match cutAtByte? finish text with
  | some (front, _) => pure front
  | none => .badSlice

/-- The slice of a text between two offsets. -/
def slice (text : List Char) (start finish : Nat) : Scanned ε (List Char) := do
  let upper ← sliceTo text finish
  sliceFrom upper start

end Slices

section Bounds

variable {ε : Type} {text front middle rest : List Char} {start finish offset : Nat}

/-- **An offset cuts a text** just if some part at its front has so many bytes. -/
theorem cutAtByte?_eq_some_iff :
    cutAtByte? offset text = some (front, rest) ↔
      text = front ++ rest ∧ byteLength front = offset := by
  induction text generalizing offset front with
  | nil =>
    cases offset with
    | zero => cases front <;> simp [cutAtByte?, eq_comm]
    | succ offset =>
      simp only [cutAtByte?, reduceCtorEq, false_iff, not_and]
      intro empty
      simp [(List.append_eq_nil_iff.mp empty.symm).1]
  | cons c others ih =>
    have positive := c.utf8Size_pos
    cases offset with
    | zero =>
      cases front with
      | nil => simp [cutAtByte?]
      | cons d front =>
        have := d.utf8Size_pos
        simp only [cutAtByte?, Option.some.injEq, Prod.mk.injEq, reduceCtorEq, false_and,
          byteLength_cons, false_iff, not_and]
        omega
    | succ offset =>
      cases front with
      | nil =>
        simp only [cutAtByte?, byteLength_nil]
        split <;> simp
      | cons d front =>
        simp only [cutAtByte?, List.cons_append, List.cons.injEq, byteLength_cons]
        split
        · rename_i fits
          simp only [Option.map_eq_some_iff, Prod.exists, Prod.mk.injEq, List.cons.injEq]
          constructor
          · rintro ⟨before, after, cut, ⟨rfl, rfl⟩, rfl⟩
            obtain ⟨whole, size⟩ := ih.mp cut
            exact ⟨⟨rfl, whole⟩, by omega⟩
          · rintro ⟨⟨rfl, whole⟩, size⟩
            exact ⟨front, rest, ih.mpr ⟨whole, by omega⟩, ⟨rfl, rfl⟩, rfl⟩
        · rename_i short
          simp only [reduceCtorEq, false_iff, not_and]
          rintro ⟨rfl, _⟩
          omega

theorem cutAtByte?_append (front rest : List Char) :
    cutAtByte? (byteLength front) (front ++ rest) = some (front, rest) :=
  cutAtByte?_eq_some_iff.mpr ⟨rfl, rfl⟩

theorem byteLength_pos (nonempty : text ≠ []) : 0 < byteLength text := by
  cases text with
  | nil => exact absurd rfl nonempty
  | cons c rest =>
    have := c.utf8Size_pos
    rw [byteLength_cons]
    omega

theorem utf8ByteSize_ofList (text : List Char) :
    (String.ofList text).utf8ByteSize = byteLength text := by
  induction text with
  | nil => rfl
  | cons c rest ih =>
    rw [← List.singleton_append, String.ofList_append, String.utf8ByteSize_append, ih]
    simp

/-- **The offsets that cut a text** are its valid positions as a string. -/
theorem isSome_cutAtByte?_iff :
    (cutAtByte? offset text).isSome ↔ String.Pos.Raw.IsValid (String.ofList text) ⟨offset⟩ := by
  rw [String.Pos.Raw.isValid_iff_exists_append, Option.isSome_iff_exists]
  constructor
  · rintro ⟨⟨front, rest⟩, cut⟩
    obtain ⟨rfl, rfl⟩ := cutAtByte?_eq_some_iff.mp cut
    refine ⟨String.ofList front, String.ofList rest, String.ofList_append, ?_⟩
    rw [String.rawEndPos, utf8ByteSize_ofList]
  · rintro ⟨front, rest, same, place⟩
    have whole : text = front.toList ++ rest.toList := by
      rw [← String.toList_append, ← same, String.toList_ofList]
    have size : byteLength front.toList = offset := by
      rw [← utf8ByteSize_ofList, String.ofList_toList]
      exact (congrArg String.Pos.Raw.byteIdx place).symm
    exact ⟨_, cutAtByte?_eq_some_iff.mpr ⟨whole, size⟩⟩

/-- An offset inside of a character cuts nothing. -/
example : cutAtByte? 1 ['é', 'a'] = none ∧ cutAtByte? 2 ['é', 'a'] = some (['é'], ['a']) := by
  decide

/-- An offset cuts a part at the front of a text just if it is inside of the part and cuts the
text. -/
theorem isSome_cutAtByte?_append_iff :
    (cutAtByte? start front).isSome ↔
      start ≤ byteLength front ∧ (cutAtByte? start (front ++ rest)).isSome := by
  simp only [Option.isSome_iff_exists, Prod.exists, cutAtByte?_eq_some_iff]
  constructor
  · rintro ⟨first, second, rfl, rfl⟩
    rw [byteLength_append]
    exact ⟨Nat.le_add_right _ _, first, second ++ rest, List.append_assoc _ _ _, rfl⟩
  · rintro ⟨inside, first, second, whole, rfl⟩
    rcases List.append_eq_append_iff.mp whole with ⟨gap, rfl, rfl⟩ | ⟨gap, rfl, _⟩
    · -- the cut is behind the part only if nothing lies between
      have empty : gap = [] := by
        by_contra nonempty
        have := byteLength_pos nonempty
        rw [byteLength_append] at inside
        omega
      exact ⟨front, [], by simp, by simp [empty]⟩
    · exact ⟨first, gap, rfl, rfl⟩

theorem sliceFrom_eq_badSlice_iff :
    sliceFrom text start = (badSlice : Scanned ε _) ↔ ¬ (cutAtByte? start text).isSome := by
  rw [sliceFrom]
  cases cutAtByte? start text with
  | none => simp
  | some parts =>
    refine ⟨fun same => ?_, fun missing => absurd rfl missing⟩
    cases same

/-- **A slice must not be taken** just if its bounds are out of order, or one of them is not valid in
the text. -/
theorem slice_eq_badSlice_iff :
    slice text start finish = (badSlice : Scanned ε _) ↔
      ¬ (start ≤ finish ∧ String.Pos.Raw.IsValid (String.ofList text) ⟨start⟩ ∧
        String.Pos.Raw.IsValid (String.ofList text) ⟨finish⟩) := by
  rw [← isSome_cutAtByte?_iff, ← isSome_cutAtByte?_iff, slice, sliceTo]
  cases cut : cutAtByte? finish text with
  | none => simp [badSlice_bind]
  | some parts =>
    obtain ⟨front, rest⟩ := parts
    obtain ⟨rfl, rfl⟩ := cutAtByte?_eq_some_iff.mp cut
    rw [pure_bind, sliceFrom_eq_badSlice_iff, @isSome_cutAtByte?_append_iff front rest]
    simp

theorem sliceFrom_append (front rest : List Char) :
    sliceFrom (front ++ rest) (byteLength front) = (pure rest : Scanned ε _) := by
  rw [sliceFrom, cutAtByte?_append]

theorem sliceTo_append (front rest : List Char) :
    sliceTo (front ++ rest) (byteLength front) = (pure front : Scanned ε _) := by
  rw [sliceTo, cutAtByte?_append]

theorem slice_append (front middle rest : List Char) :
    slice (front ++ (middle ++ rest)) (byteLength front) (byteLength front + byteLength middle) =
      (pure middle : Scanned ε _) := by
  rw [slice, ← byteLength_append, ← List.append_assoc, sliceTo_append, pure_bind,
    sliceFrom_append]

/-- The slice behind a first character of one byte. -/
theorem sliceFrom_cons {c : Char} (narrow : c.utf8Size = 1) (rest : List Char) :
    sliceFrom (c :: rest) 1 = (pure rest : Scanned ε _) := by
  simpa [narrow] using sliceFrom_append [c] rest

/-- The slice behind a first character of one byte, up to the end of a part. -/
theorem slice_cons {c : Char} (narrow : c.utf8Size = 1) (front rest : List Char) :
    slice (c :: (front ++ rest)) 1 (byteLength front + 1) = (pure front : Scanned ε _) := by
  simpa [narrow, Nat.add_comm] using slice_append (ε := ε) [c] front rest

end Bounds

/-! ### Offsets of rests -/

/-- The offset at which a rest of a text starts. -/
def offsetOf (text rest : List Char) : Nat :=
  byteLength text - byteLength rest

section Offsets

variable {ε : Type} {text front middle rest after : List Char}

@[simp] theorem offsetOf_self (text : List Char) : offsetOf text text = 0 :=
  Nat.sub_self _

@[simp] theorem offsetOf_nil (text : List Char) : offsetOf text [] = byteLength text := rfl

theorem offsetOf_append (front rest : List Char) :
    offsetOf (front ++ rest) rest = byteLength front := by
  rw [offsetOf, byteLength_append, Nat.add_sub_cancel]

/-- Behind something that is passed over, the rest starts as many bytes further on. -/
theorem offsetOf_add (front : List Char) (suffix : front ++ rest <:+ text) :
    offsetOf text (front ++ rest) + byteLength front = offsetOf text rest := by
  obtain ⟨before, rfl⟩ := suffix
  rw [offsetOf_append, ← List.append_assoc, offsetOf_append, byteLength_append]

theorem offsetOf_add_cons {c : Char} (suffix : c :: rest <:+ text) :
    offsetOf text (c :: rest) + c.utf8Size = offsetOf text rest := by
  simpa using offsetOf_add [c] suffix

/-- The offset behind the character that ends a part. -/
theorem offsetOf_cut {mark : Char} (suffix : front ++ mark :: rest <:+ text) :
    offsetOf text (front ++ mark :: rest) + (byteLength front + mark.utf8Size) =
      offsetOf text rest := by
  have inside : mark :: rest <:+ text := (List.suffix_append front _).trans suffix
  rw [← Nat.add_assoc, offsetOf_add front suffix, offsetOf_add_cons inside]

/-- **A shorter rest starts further on.** -/
theorem offsetOf_lt (suffix : rest <:+ text) (inside : after <:+ rest)
    (shorter : after.length < rest.length) : offsetOf text rest < offsetOf text after := by
  obtain ⟨passed, rfl⟩ := inside
  have nonempty : passed ≠ [] := by
    rintro rfl
    exact Nat.lt_irrefl _ shorter
  have := byteLength_pos nonempty
  rw [← offsetOf_add passed suffix]
  omega

/-- The offset in a rest adds to the offset of the rest. -/
theorem offsetOf_trans (suffix : rest <:+ text) (inside : after <:+ rest) :
    offsetOf text rest + offsetOf rest after = offsetOf text after := by
  obtain ⟨passed, rfl⟩ := inside
  rw [offsetOf_append, offsetOf_add passed suffix]

theorem sliceFrom_offsetOf (suffix : rest <:+ text) :
    sliceFrom text (offsetOf text rest) = (pure rest : Scanned ε _) := by
  obtain ⟨before, rfl⟩ := suffix
  rw [offsetOf_append, sliceFrom_append]

theorem slice_offsetOf (suffix : middle ++ rest <:+ text) :
    slice text (offsetOf text (middle ++ rest)) (offsetOf text rest) =
      (pure middle : Scanned ε _) := by
  rw [← offsetOf_add middle suffix]
  obtain ⟨before, rfl⟩ := suffix
  rw [offsetOf_append, slice_append]

end Offsets

/-! ### Passing over characters -/

section Passing

variable {ε : Type} {text rest : List Char}

/-- The cursor behind the white space after it. -/
def skipBlank (text : List Char) (cursor : Nat) : Scanned ε Nat := do
  let rest ← sliceFrom text cursor
  return cursor + (byteLength rest - byteLength (trimStart rest))

/-- The characters after a cursor up to the first without a property, and the cursor behind them. -/
def takeSpan (p : Char → Bool) (text : List Char) (cursor : Nat) : Scanned ε (List Char × Nat) := do
  let rest ← sliceFrom text cursor
  let length := byteLength (rest.takeWhile p)
  let span ← sliceTo rest length
  return (span, cursor + length)

theorem skipBlank_offsetOf (suffix : rest <:+ text) :
    skipBlank text (offsetOf text rest) =
      (pure (offsetOf text (trimStart rest)) : Scanned ε _) := by
  have parts : rest.takeWhile isBlank ++ trimStart rest = rest := List.takeWhile_append_dropWhile
  have passed := congrArg byteLength parts
  have further := offsetOf_add _ (parts.symm ▸ suffix)
  rw [byteLength_append] at passed
  rw [parts] at further
  rw [skipBlank, sliceFrom_offsetOf suffix, pure_bind, ← further, ← passed, Nat.add_sub_cancel]

theorem takeSpan_offsetOf (p : Char → Bool) (suffix : rest <:+ text) :
    takeSpan p text (offsetOf text rest) =
      (pure (rest.takeWhile p, offsetOf text (rest.dropWhile p)) : Scanned ε _) := by
  have parts : rest.takeWhile p ++ rest.dropWhile p = rest := List.takeWhile_append_dropWhile
  have span := sliceTo_append (ε := ε) (rest.takeWhile p) (rest.dropWhile p)
  have further := offsetOf_add _ (parts.symm ▸ suffix)
  rw [parts] at span further
  simp only [takeSpan, sliceFrom_offsetOf suffix, pure_bind, span, further]

end Passing

/-! ### Searching -/

/-- The offset of the first occurrence of a character. -/
def placeOf? (mark : Char) (text : List Char) : Option Nat :=
  (cutAt mark text).map fun (front, _) => byteLength front

/-- A character is searched behind every other one. -/
theorem placeOf?_cons {mark c : Char} (other : c ≠ mark) (rest : List Char) :
    placeOf? mark (c :: rest) = (placeOf? mark rest).map (c.utf8Size + ·) := by
  rw [placeOf?, cutAt, if_neg other, Option.map_map, placeOf?, Option.map_map]
  rfl

/-- The offset of the first occurrence of a needle. -/
def placeOfText? (needle text : List Char) : Option Nat :=
  (cutAtText needle text).map fun (front, _) => byteLength front

end DataBind.Cursor
