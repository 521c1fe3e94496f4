/-
**Loose equality by conversions.**

A comparison of two values is settled at once, or goes on with one of them converted: a boolean to
a number, and an array, an object or a function to its text where the other value is a number or a
text. Only booleans and compound values are converted, so that a comparison is settled after two
conversions at most.

* `compareStep`, `Settles`: how a comparison is settled, conversion by conversion;
* `looseEq_of_goesOn`: a conversion keeps what loose equality says, and fewer are left;
* `exists_settles`: every comparison is settled, as loose equality says;
* `float_beq_comm`, `looseEq_comm`: the order of the two values does not matter;
* `looseEq_laws`: the laws of loose equality.
-/

import DataBind.Value.Equality
import Mathlib

namespace DataBind.Value

/-! ### Numbers -/

section Numbers

open Float.Model Float.Model.UnpackedFloat

/-- Two doubles compared the other way around. -/
theorem compare_swap (x y : UnpackedFloat) :
    UnpackedFloat.compare y x = (UnpackedFloat.compare x y).map Ordering.swap := by
  have magnitudes : ∀ (e f : Int) (m n : Nat), (compare f e).then (compare n m) =
      ((compare e f).then (compare m n)).swap := by
    intro e f m n
    rw [Ordering.swap_then, ← Std.OrientedCmp.eq_swap, ← Std.OrientedCmp.eq_swap]
  cases x with
  | notANumber => cases y <;> rfl
  | infinity sign => rcases y with (_ | _) | _ | _ | _ <;> cases sign <;> rfl
  | zero sign => rcases y with (_ | _) | _ | _ | ⟨_ | _, _⟩ <;> rfl
  | finite sign m e _ =>
    rcases y with (_ | _) | _ | _ | ⟨other, n, f, _⟩
    · cases sign <;> rfl
    · cases sign <;> rfl
    · rfl
    · cases sign <;> rfl
    · cases sign <;> cases other
      · exact congrArg (fun order => some order.swap) (magnitudes e f m n)
      · rfl
      · rfl
      · exact congrArg some (magnitudes e f m n)

/-- **Equality of doubles is symmetric.** -/
theorem float_beq_comm (x y : Float) : (x == y) = (y == x) := by
  show (UnpackedFloat.compare x.toModel.unpack y.toModel.unpack == some .eq) =
    (UnpackedFloat.compare y.toModel.unpack x.toModel.unpack == some .eq)
  rw [compare_swap y.toModel.unpack x.toModel.unpack]
  rcases UnpackedFloat.compare y.toModel.unpack x.toModel.unpack with _ | (_ | _ | _) <;> rfl

end Numbers

/-! ### One conversion after the other -/

/-- What becomes of a comparison: it is settled, or it goes on with other values. -/
inductive Comparison where
  | settled (equal : Bool)
  | goesOn (first second : Value)

/-- **One step of a comparison**; the first rule that fits decides. -/
def compareStep : Value → Value → Comparison
  | .undefined, .undefined => .settled true
  | .undefined, .null => .settled true
  | .null, .undefined => .settled true
  | .null, .null => .settled true
  | .undefined, _ => .settled false
  | .null, _ => .settled false
  | _, .undefined => .settled false
  | _, .null => .settled false
  | .number first, .string second => .settled (first == textNumber second)
  | .string first, .number second => .settled (textNumber first == second)
  | .bool flag, second => .goesOn (.number (Value.bool flag).toNumber) second
  | first, .bool flag => .goesOn first (.number (Value.bool flag).toNumber)
  | first, second =>
    if first.isCompound && !second.isCompound then .goesOn (.string first.toText) second
    else if second.isCompound && !first.isCompound then .goesOn first (.string second.toText)
    else .settled (first.strictEq second)

/-- **A comparison is settled** after a number of conversions. -/
inductive Settles : Nat → Value → Value → Bool → Prop
  | now {first second : Value} {equal : Bool} :
      compareStep first second = .settled equal → Settles 0 first second equal
  | later {count : Nat} {first second one two : Value} {equal : Bool} :
      compareStep first second = .goesOn one two → Settles count one two equal →
      Settles (count + 1) first second equal

/-- Whether a value is a boolean. -/
def isBool : Value → Bool
  | .bool _ => true
  | _ => false

/-- How many conversions a comparison can still need: one for each boolean, and one if only one of
the values is compound. -/
def conversions (first second : Value) : Nat :=
  first.isBool.toNat + second.isBool.toNat + (first.isCompound != second.isCompound).toNat

theorem conversions_le (first second : Value) : conversions first second ≤ 2 := by
  cases first <;> cases second <;> exact Nat.le_of_ble_eq_true rfl

theorem looseEq_of_settled {first second : Value} {equal : Bool}
    (step : compareStep first second = .settled equal) : first.looseEq second = equal := by
  cases first <;> cases second <;> cases step <;> rfl

/-- **A conversion keeps what loose equality says**, and leaves fewer of them. -/
theorem looseEq_of_goesOn {first second one two : Value}
    (step : compareStep first second = .goesOn one two) :
    one.looseEq two = first.looseEq second ∧ conversions one two < conversions first second := by
  cases first <;> cases second <;> cases step <;>
    exact ⟨rfl, Nat.le_of_ble_eq_true rfl⟩

/-- **Every comparison is settled**, with the answer of loose equality. -/
theorem exists_settles (first second : Value) :
    ∃ count ≤ conversions first second, Settles count first second (first.looseEq second) := by
  induction most : conversions first second using Nat.strongRecOn generalizing first second with
  | ind most ih =>
    cases step : compareStep first second with
    | settled equal =>
      rw [looseEq_of_settled step]
      exact ⟨0, Nat.zero_le _, .now step⟩
    | goesOn one two =>
      obtain ⟨same, fewer⟩ := looseEq_of_goesOn step
      obtain ⟨count, bound, settles⟩ := ih _ (most ▸ fewer) one two rfl
      rw [same] at settles
      exact ⟨count + 1, by omega, .later step settles⟩

/-- A comparison is settled in one way only. -/
theorem Settles.eq_looseEq {count : Nat} {first second : Value} {equal : Bool}
    (settles : Settles count first second equal) : equal = first.looseEq second := by
  induction settles with
  | now step => exact (looseEq_of_settled step).symm
  | later step _ ih => exact ih.trans (looseEq_of_goesOn step).1

/-! ### Laws -/

/-- Values of the same type, where arrays, objects and null are told apart. -/
def SameKind (first second : Value) : Prop :=
  first.ctorIdx = second.ctorIdx

theorem strictEq_comm (first second : Value) : first.strictEq second = second.strictEq first := by
  cases first <;> cases second <;> first | rfl | exact float_beq_comm _ _ | exact Bool.beq_comm

theorem looseEqPlain_comm (first second : Value) :
    first.looseEqPlain second = second.looseEqPlain first := by
  cases first <;> cases second <;> first | exact float_beq_comm _ _ | exact Bool.beq_comm

/-- **Loose equality is symmetric.** -/
theorem looseEq_comm (first second : Value) : first.looseEq second = second.looseEq first := by
  unfold looseEq
  rw [Bool.or_comm, Bool.and_comm first.isNullish]
  simp only [Bool.and_comm first.withoutBool.isCompound, strictEq_comm first.withoutBool,
    looseEqPlain_comm first.withoutBool.withoutCompound]

/-- Values that are strictly equal are of the same type. -/
theorem sameKind_of_strictEq {first second : Value} (equal : first.strictEq second = true) :
    SameKind first second := by
  cases first <;> cases second <;> first | rfl | cases equal

/-- **Within a type** loose and strict equality are the same. -/
theorem looseEq_of_sameKind {first second : Value} (same : SameKind first second) :
    first.looseEq second = first.strictEq second := by
  cases first with
  | bool flag =>
    cases second <;> cases same
    rename_i other
    revert flag other
    decide
  | _ =>
    cases second <;> cases same
    rfl

/-- **The laws of loose equality** of two values. -/
structure LooseLaws (first second : Value) : Prop where
  /-- A comparison ends after two conversions at most. -/
  settled : ∃ count ≤ 2, Settles count first second (first.looseEq second)
  settles_only : ∀ count equal, Settles count first second equal → equal = first.looseEq second
  symmetric : first.looseEq second = second.looseEq first
  of_strictEq : first.strictEq second = true → first.looseEq second = true
  of_sameKind : SameKind first second → first.looseEq second = first.strictEq second
  nullish : first.isNullish = true → first.looseEq second = second.isNullish

/-- **Loose equality**, conversion by conversion, ends; it is symmetric, it extends strict
equality, from which it differs between types only, and undefined and null are equal to each other
and to nothing else. -/
theorem looseEq_laws (first second : Value) : LooseLaws first second where
  settled := by
    obtain ⟨count, bound, settles⟩ := exists_settles first second
    exact ⟨count, bound.trans (conversions_le first second), settles⟩
  settles_only _ _ settles := settles.eq_looseEq
  symmetric := looseEq_comm first second
  of_strictEq equal := (looseEq_of_sameKind (sameKind_of_strictEq equal)).trans equal
  of_sameKind := looseEq_of_sameKind
  nullish := looseEq_nullish second

end DataBind.Value
