/-
**Parts of texts and of arrays.**

The methods `slice` and `substring` take what stands between two positions. A position is given by
any value: it is made a number, and the number is brought between zero and the length, for arrays
from the end if it is negative. A missing second position is the end.

* `map_some_slice`: a slice is read at positions inside of the list;
* `range_le`: the positions that arguments denote are at most the length;
* `callMethod_slice`, `callMethod_part`: the two methods, for all arguments;
* `parts_of_positions`: both cut in two at every position, and take nothing from outside.
-/

import DataBind.Proofs.Builtin.Positions

namespace DataBind

open Builtin

namespace Builtin

/-! ### Slices -/

section Slices

variable {α : Type} (items : List α)

theorem slice_zero (last : Nat) : slice items 0 last = items.take last := rfl

theorem slice_length (first : Nat) : slice items first items.length = items.drop first := by
  rw [slice, ← List.length_drop, List.take_length]

/-- **A slice is read at its positions**, at each of which there is an element. -/
theorem map_some_slice (first : Nat) {last : Nat} (inside : last ≤ items.length) :
    (slice items first last).map some =
      (List.range' first (last - first)).map fun i => items[i]? := by
  refine List.ext_getElem ?_ fun i left right => ?_
  · simp only [slice, List.length_map, List.length_take, List.length_drop, List.length_range']
    omega
  · rw [List.length_map, List.length_range'] at right
    have here : first + i < items.length := by omega
    simp [slice, List.getElem?_eq_getElem here]

end Slices

/-! ### The positions that arguments denote -/

section Ranges

variable (arguments : List Value) (length : Nat) (fromEnd : Bool)

/-- **No position is beyond the end.** -/
theorem range_le : (range arguments length fromEnd).1 ≤ length ∧
    (range arguments length fromEnd).2 ≤ length := by
  refine ⟨clampIndex_le _ _ _, ?_⟩
  simp only [range]
  split
  · exact Nat.le_refl length
  · exact clampIndex_le _ _ _

theorem range_single (first : Value) :
    range [first] length fromEnd = (clampIndex first.toNumber length fromEnd, length) := rfl

theorem range_pair (first : Value) {second : Value} (given : second ≠ .undefined) :
    range [first, second] length fromEnd =
      (clampIndex first.toNumber length fromEnd, clampIndex second.toNumber length fromEnd) := by
  cases second with
  | undefined => exact absurd rfl given
  | _ => rfl

/-- Up to a position, from the start. -/
theorem range_zero {second : Value} (given : second ≠ .undefined) :
    range [.ofNat 0, second] length fromEnd =
      (0, clampIndex second.toNumber length fromEnd) := by
  have start : clampIndex (Value.ofNat 0).toNumber length fromEnd = 0 :=
    (clampIndex_ofNat (by decide) length fromEnd).trans (Nat.zero_min length)
  rw [range_pair length fromEnd _ given, start]

end Ranges

/-- The characters between two positions, in either order. -/
def partOf (text : List Char) (range : Nat × Nat) : String :=
  String.ofList (slice text (min range.1 range.2) (max range.1 range.2))

theorem partOf_swap (text : List Char) (range : Nat × Nat) :
    partOf text range.swap = partOf text range := by
  rw [partOf, partOf, Prod.fst_swap, Prod.snd_swap, min_comm, max_comm]

/-- A text is what stands before a position, and what stands behind it. -/
theorem partOf_append_partOf (text : List Char) {position : Nat} (inside : position ≤ text.length) :
    partOf text (0, position) ++ partOf text (position, text.length) = String.ofList text := by
  simp only [partOf, Nat.zero_min, Nat.zero_max, Nat.min_eq_left inside, Nat.max_eq_right inside]
  rw [slice_zero, slice_length, ← String.ofList_append, List.take_append_drop]

end Builtin

/-! ### Both methods -/

/-- What goes on after an evaluation that gives a value. -/
theorem Evaluation.bind_of_ok {α β : Type} {head : Evaluation α}
    {tail : α → Evaluation β} {value : α} {next later : Nat}
    (given : head next = .ok (value, later)) : (head >>= tail) next = tail value later := by
  simp only [bind, StateT.bind, Except.bind, given]

section

variable (host : Host) (items : List Value) (text : String) (arguments : List Value)
  (identity next : Nat)

/-- The elements that `slice` takes for a new array. -/
def sliced : List Value :=
  slice items (range arguments items.length true).1 (range arguments items.length true).2

/-- The method `slice` makes a new array of the elements between two positions. -/
theorem callMethod_slice :
    Expr.callMethod host (.array identity items) (.string "slice") arguments next =
      .ok (.array next (sliced items arguments), next + 1) := by
  have missing : property (.array identity items) (.string "slice") = .ok .undefined :=
    property_name (by decide) rfl (.inr ⟨identity, items, rfl⟩)
  have found : method? (.array identity items) "slice" arguments =
      some (Evaluation.newArray (sliced items arguments)) := rfl
  exact congrFun (callMethod_eq missing found) next

/-- The method `substring` gives the characters between two positions. -/
theorem callMethod_part :
    Expr.callMethod host (.string text) (.string "substring") arguments next =
      .ok (.string (partOf text.toList (range arguments text.toList.length false)), next) :=
  callMethod_text host text next (by decide) rfl rfl

/-- **What `slice` and `substring` take for two positions.** Every array and every text is what is
before a position, followed by what is behind it; no element is taken from outside of an array; and
the positions in a text can be swapped. -/
structure Parted (first second : Value) : Prop where
  slices : ∃ front back,
    Expr.callMethod host (.array identity items) (.string "slice") [.ofNat 0, second] next =
      .ok (.array next front, next + 1) ∧
    Expr.callMethod host (.array identity items) (.string "slice") [second] next =
      .ok (.array next back, next + 1) ∧
    front ++ back = items
  /-- Whatever the arguments are, there is an element at each position that is read. -/
  inside : ∀ arguments, ∃ part,
    Expr.callMethod host (.array identity items) (.string "slice") arguments next =
      .ok (.array next part, next + 1) ∧
    ∃ start stop, range arguments items.length true = (start, stop) ∧
      start ≤ items.length ∧ stop ≤ items.length ∧
      part.map some = (List.range' start (stop - start)).map fun i => items[i]?
  joined :
    (do
      let front ← Expr.callMethod host (.string text) (.string "substring") [.ofNat 0, second]
      let back ← Expr.callMethod host (.string text) (.string "substring") [second]
      let whole := Expr.applyBinary .add front back
      return Expr.applyBinary .equalStrict whole (.string text) : Evaluation Value) next =
        .ok (.bool true, next)
  swapped :
    (do
      let forth ← Expr.callMethod host (.string text) (.string "substring") [first, second]
      let back ← Expr.callMethod host (.string text) (.string "substring") [second, first]
      return Expr.applyBinary .equalStrict forth back : Evaluation Value) next =
        .ok (.bool true, next)

end

/-- **Arrays and texts are cut in two at every position**, whatever values denote the positions:
what is before it and what is behind it are the whole, and nothing is taken from outside. -/
theorem parts_of_positions {first second : Value} (start : first ≠ .undefined)
    (stop : second ≠ .undefined) (host : Host) (items : List Value) (text : String)
    (identity next : Nat) : Parted host items text identity next first second where
  slices := by
    refine ⟨_, _, callMethod_slice host items _ identity next,
      callMethod_slice host items _ identity next, ?_⟩
    rw [sliced, sliced, range_zero _ _ stop, range_single, slice_zero, slice_length,
      List.take_append_drop]
  inside arguments := by
    have bounds := range_le arguments items.length true
    exact ⟨_, callMethod_slice host items arguments identity next, _, _, rfl, bounds.1, bounds.2,
      map_some_slice items _ bounds.2⟩
  joined := by
    have whole := partOf_append_partOf text.toList
      (clampIndex_le second.toNumber text.toList.length false)
    rw [String.ofList_toList] at whole
    have front := callMethod_part host text [.ofNat 0, second] next
    have back := callMethod_part host text [second] next
    rw [range_zero _ _ stop] at front
    rw [range_single] at back
    have sum : ∀ front back : String,
        Expr.applyBinary .add (.string front) (.string back) = .string (front ++ back) :=
      fun _ _ => rfl
    rw [Evaluation.bind_of_ok front, Evaluation.bind_of_ok back, sum, whole]
    exact congrArg (fun same => Except.ok (Value.bool same, next)) (beq_self_eq_true text)
  swapped := by
    have pair := range_pair text.toList.length false first stop
    have reverse := range_pair text.toList.length false second start
    have swap := partOf_swap text.toList (range [first, second] text.toList.length false)
    rw [pair, Prod.swap_prod_mk, ← pair, ← reverse] at swap
    rw [Evaluation.bind_of_ok (callMethod_part host text [first, second] next),
      Evaluation.bind_of_ok (callMethod_part host text [second, first] next), swap]
    exact congrArg (fun same => Except.ok (Value.bool same, next)) (beq_self_eq_true _)

/-- A position that counts from the end of an array, from a text, and one that is no number. -/
theorem parts_of_positions_mixed :
    Value.string "-1.5" ≠ .undefined ∧ Value.array 4 [.null, .null] ≠ .undefined ∧
      Parted (fun _ this _ => pure this) [.null, .bool true, .string "b"] "año" 5 6
        (.array 4 [.null, .null]) (.string "-1.5") :=
  ⟨Value.noConfusion, Value.noConfusion,
    parts_of_positions Value.noConfusion Value.noConfusion _ _ _ 5 6⟩

end DataBind
