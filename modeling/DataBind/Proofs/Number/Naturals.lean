/-
**Natural numbers as doubles.**

The natural numbers below `2 ^ 53` are doubles: each is a number of at most 53 bits, and filled up
with zeros to just 53 it is the significand of a normal double. Nothing is rounded where one is
made, or where two of them are added and the sum is such a number again.

* `parts_eq`: the parts read off the bits of a double are those of the arithmetic of doubles;
* `round_natural`: rounding gives a natural number, however many zeros it is written with;
* `ofNat_eq`: the double of a natural number;
* `ofNat_add`: doubles of natural numbers are added exactly;
* `truncated_ofNat`, `naturalIndex?_ofNat`: the natural number of such a double.
-/

import DataBind.Number.Binary
import Mathlib

namespace DataBind.Number

open Float.Model Float.Model.UnpackedFloat

/-! ### Parts -/

/-- The parts of an unpacked double. -/
def partsOf : UnpackedFloat → Parts
  | .notANumber => .nan
  | .infinity sign => .infinite (sign == .negative)
  | .zero sign => .finite (sign == .negative) 0 (-1074)
  | .finite sign significand exponent _ => .finite (sign == .negative) significand exponent

theorem ofBitVec_beq (sign : BitVec 1) : (Sign.ofBitVec sign == .negative) = (sign.toNat == 1) := by
  revert sign
  decide

theorem exponentBias_eq : (Format.binary64.exponentBias : Int) = 1023 := rfl

section Bits

variable (bits : BitVec Format.binary64.numBits)

theorem toNat_unpackMantissa : (unpackMantissa bits).toNat = bits.toNat % leadingBit := by
  simp [unpackMantissa, leadingBit]

theorem toNat_unpackExponent : (unpackExponent bits).toNat = (bits.toNat >>> 52) % 2048 := by
  simp [unpackExponent]

theorem toNat_unpackSign : (unpackSign bits).toNat = bits.toNat >>> 63 := by
  have bound : bits.toNat < 2 ^ 64 := bits.isLt
  simp [unpackSign, Nat.shiftRight_eq_div_pow]
  omega

/-- The leading bit, which is not stored, in front of the fraction. -/
theorem toNat_append_one (fraction : BitVec 52) :
    (1#1 ++ fraction).toNat = fraction.toNat + leadingBit := by
  rw [BitVec.toNat_append, ← Nat.shiftLeft_add_eq_or_of_lt fraction.isLt, Nat.add_comm]
  rfl

theorem parts_of_bits {x : Float} (same : x.toBits.toBitVec = bits) :
    parts x = partsOf (UnpackedFloat.unpack Format.binary64 bits) := by
  have exponent := toNat_unpackExponent bits
  have mantissa := toNat_unpackMantissa bits
  have implicit := (toNat_append_one (unpackMantissa bits)).trans (congrArg (· + _) mantissa)
  have sign := (ofBitVec_beq _).trans (congrArg (· == 1) (toNat_unpackSign bits))
  have fraction : unpackMantissa bits = 0#_ ↔ bits.toNat % leadingBit = 0 := by
    rw [← mantissa, ← BitVec.toNat_inj]
    rfl
  have whole : x.toBits.toNat = bits.toNat := by rw [← same, UInt64.toNat_toBitVec]
  unfold parts UnpackedFloat.unpack
  simp only [whole, fraction]
  -- the greatest exponent is for what is no number, and the least one for the numbers next to zero
  by_cases greatest : bits.toNat >>> 52 % 2048 = 2047
  · have ones : unpackExponent bits = -1#_ := BitVec.eq_of_toNat_eq (exponent.trans greatest)
    rw [if_pos greatest, if_pos ones]
    split
    · rw [partsOf, sign]
    · rfl
  · have notOnes : unpackExponent bits ≠ -1#_ :=
      fun ones => greatest (exponent.symm.trans (congrArg BitVec.toNat ones))
    rw [if_neg greatest, if_neg notOnes]
    by_cases least : bits.toNat >>> 52 % 2048 = 0
    · have zeros : unpackExponent bits = 0#_ := BitVec.eq_of_toNat_eq (exponent.trans least)
      rw [if_pos least, if_pos zeros]
      split
      · rw [partsOf, sign, ‹_ % leadingBit = 0›]
      · rw [partsOf, sign, mantissa, exponent, least, exponentBias_eq]
        rfl
    · have notZeros : unpackExponent bits ≠ 0#_ :=
        fun zeros => least (exponent.symm.trans (congrArg BitVec.toNat zeros))
      rw [if_neg least, if_neg notZeros, partsOf, sign, implicit, exponent, exponentBias_eq]
      rfl

end Bits

/-- **The parts of a double** are those that its arithmetic starts from. -/
theorem parts_eq (x : Float) : parts x = partsOf x.toModel.unpack :=
  parts_of_bits x.toBits.toBitVec rfl

/-! ### Normal numbers -/

theorem log2_shiftLeft {n : Nat} (positive : 0 < n) (k : Nat) : (n <<< k).log2 = n.log2 + k := by
  have low := Nat.log2_self_le positive.ne'
  have high := @Nat.lt_log2_self n
  rw [Nat.shiftLeft_eq, Nat.log2_eq_iff (by positivity)]
  constructor
  · rw [Nat.pow_add]
    exact Nat.mul_le_mul_right _ low
  · rw [Nat.add_right_comm, Nat.pow_add]
    exact Nat.mul_lt_mul_of_pos_right high (by positivity)

/-- Zeros are shifted out exactly. -/
theorem shiftRight_shiftLeft (m k : Nat) :
    (⟨m <<< k, false, false⟩ : ExtendedMantissa) >>> k = ⟨m, false, false⟩ := by
  induction k generalizing m with
  | zero => rfl
  | succ k ih =>
    have before : (⟨m <<< (k + 1), false, false⟩ : ExtendedMantissa) >>> k =
        ⟨m <<< 1, false, false⟩ := by
      rw [Nat.add_comm, Nat.shiftLeft_add]
      exact ih (m <<< 1)
    show ((⟨m <<< (k + 1), false, false⟩ : ExtendedMantissa) >>> k).shiftRightOne = _
    rw [before, ExtendedMantissa.shiftRightOne]
    simp [Nat.shiftLeft_eq]

theorem targetExponent_eq (total : Int) :
    Format.binary64.targetExponent total = max (total - 53) (-1074) := rfl

section Normal

-- the number `m · 2 ^ e`, of 53 bits
variable {m : Nat} {e : Int} (bits : m.log2 = 52) (least : -1074 ≤ e) (positive : 0 < m)

include bits least positive

theorem shiftToTargetExponent_eq (k : Nat) :
    shiftToTargetExponent Format.binary64 (m <<< k) (e - k) .exact = (⟨m, false, false⟩, e) := by
  have target : Format.binary64.targetExponent (totalExponent (m <<< k) (e - k)) = e := by
    rw [targetExponent_eq, totalExponent, log2_shiftLeft positive, bits]
    omega
  have amount : (e - (e - k)).toNat = k := by omega
  rw [shiftToTargetExponent, target, shiftToExponent]
  simp only [amount, ExtendedMantissa.ofMantissaAndAccuracy, shiftRight_shiftLeft, sub_add_cancel]

/-- **Rounding gives a normal number back**, however many zeros it is written with. -/
theorem roundWithAccuracy_eq (sign : Sign) (k : Nat) :
    roundWithAccuracy Format.binary64 sign (m <<< k) (e - k) .exact =
      .finite sign m e positive := by
  have again := shiftToTargetExponent_eq bits least positive 0
  have rounded : ExtendedMantissa.roundedMantissa ⟨m, false, false⟩ = m := rfl
  rw [Nat.shiftLeft_zero, Nat.cast_zero, sub_zero] at again
  unfold roundWithAccuracy
  simp only [shiftToTargetExponent_eq bits least positive k, rounded, again]
  exact dif_neg positive.ne'

theorem unpack_pack_finite (sign : Sign) (greatest : e ≤ 971) :
    UnpackedFloat.unpack Format.binary64 (UnpackedFloat.pack Format.binary64
      (.finite sign m e positive)) = .finite sign m e positive := by
  obtain ⟨low, high⟩ := (Nat.log2_eq_iff positive.ne').mp bits
  have bias : e + Format.binary64.exponentBias + Format.binary64.mantissaBitsWithoutImplicit =
      e + 1075 := by
    show e + 1023 + 52 = e + 1075
    omega
  have field : (BitVec.ofNat 11 (e + 1075).toNat).toNat = (e + 1075).toNat := by
    rw [BitVec.toNat_ofNat, Nat.mod_eq_of_lt (by omega)]
  have notOnes : BitVec.ofNat 11 (e + 1075).toNat ≠ -1#11 := fun ones => by
    have all : (e + 1075).toNat = 2047 := field.symm.trans (congrArg BitVec.toNat ones)
    omega
  have notZeros : BitVec.ofNat 11 (e + 1075).toNat ≠ 0#11 := fun zeros => by
    have none : (e + 1075).toNat = 0 := field.symm.trans (congrArg BitVec.toNat zeros)
    omega
  have significand : (1#1 ++ BitVec.ofNat 52 m).toNat = m := by
    rw [toNat_append_one, BitVec.toNat_ofNat, leadingBit]
    omega
  have packed : UnpackedFloat.pack Format.binary64 (.finite sign m e positive) =
      packComponents _ sign (BitVec.ofNat 11 (e + 1075).toNat) (BitVec.ofNat 52 m) := by
    unfold UnpackedFloat.pack
    simp only [bias, bits]
    rw [if_neg (by omega)]
    exact if_pos rfl
  rw [packed, UnpackedFloat.unpack]
  simp only [unpackMantissa_packComponents, unpackExponent_packComponents,
    unpackSign_packComponents, Sign.ofBitVec_toBitVec]
  rw [if_neg notOnes, if_neg notZeros]
  simp only [significand, field, exponentBias_eq]
  congr 1
  omega

end Normal

/-! ### Natural numbers -/

/-- The number of zeros that fill a natural number up to 53 bits. -/
def gap (n : Nat) : Nat :=
  52 - n.log2

/-- A natural number as an unpacked double. -/
def natural (n : Nat) : UnpackedFloat :=
  if positive : 0 < n <<< gap n then .finite .positive (n <<< gap n) (-gap n) positive
  else .zero .positive

theorem natural_eq {n : Nat} (positive : 0 < n) :
    natural n = .finite .positive (n <<< gap n) (-gap n) (Nat.shiftLeft_pos_iff.mpr positive) :=
  dif_pos (Nat.shiftLeft_pos_iff.mpr positive)

theorem gap_le (n : Nat) : -1074 ≤ -(gap n : Int) := by
  rw [gap]
  omega

theorem log2_shiftLeft_gap {n : Nat} (positive : 0 < n) (small : n < 2 ^ 53) :
    (n <<< gap n).log2 = 52 := by
  have fits := (Nat.log2_lt positive.ne').mpr small
  rw [log2_shiftLeft positive, gap]
  omega

section Small

variable {n : Nat} (small : n < 2 ^ 53)

include small

/-- **Rounding gives a natural number**, however many zeros it is written with. -/
theorem round_natural (positive : 0 < n) (k : Nat) :
    UnpackedFloat.round Format.binary64 .positive (n <<< k) (-k) = natural n := by
  have bits := log2_shiftLeft_gap positive small
  have target : Format.binary64.targetExponent (totalExponent (n <<< k) (-k)) = -(gap n : Int) := by
    rw [log2_shiftLeft positive] at bits
    rw [targetExponent_eq, totalExponent, log2_shiftLeft positive]
    omega
  -- missing zeros are added first, and those that are too many are taken away
  have amount : (-(k : Int) - -(gap n : Int)).toNat = gap n - k := by omega
  have significand : n <<< k <<< (gap n - k) = n <<< gap n <<< (k - gap n) := by
    rw [← Nat.shiftLeft_add, ← Nat.shiftLeft_add]
    congr 1
    omega
  have exponent : -(k : Int) - (gap n - k : Nat) = -(gap n : Int) - (k - gap n : Nat) := by omega
  rw [UnpackedFloat.round, target, decreaseExponent]
  simp only [amount, significand, exponent]
  rw [roundWithAccuracy_eq bits (gap_le n) (Nat.shiftLeft_pos_iff.mpr positive),
    natural_eq positive]

theorem normalize_natural (k : Nat) :
    UnpackedFloat.normalize Format.binary64 (n <<< k : Nat) (-k) .positive = natural n := by
  rcases n.eq_zero_or_pos with rfl | positive
  · rw [Nat.zero_shiftLeft]
    rfl
  · have greater : compare ((n <<< k : Nat) : Int) 0 = .gt :=
      compare_gt_iff_gt.mpr (Int.natCast_pos.mpr (Nat.shiftLeft_pos_iff.mpr positive))
    unfold UnpackedFloat.normalize
    rw [greater]
    exact round_natural small positive k

theorem unpack_pack_natural : (Float.Model.pack (natural n)).unpack = natural n := by
  rcases n.eq_zero_or_pos with rfl | positive
  · rfl
  · rw [natural_eq positive]
    exact unpack_pack_finite (log2_shiftLeft_gap positive small) (gap_le n) _ _ (by omega)

theorem toFloat_eq : n.toUInt64.toFloat = .ofModel (Float.Model.pack (natural n)) := by
  have size : n.toUInt64.toNat = n := Nat.mod_eq_of_lt (by omega)
  show Float.ofModel (Float.Model.pack
    (UnpackedFloat.normalize _ n.toUInt64.toNat (-(0 : Nat)) .positive)) = _
  rw [size]
  exact congrArg (fun x => Float.ofModel (Float.Model.pack x)) (normalize_natural small 0)

/-- **The double of a natural number.** -/
theorem ofNat_eq : Float.ofNat n = .ofModel (Float.Model.pack (natural n)) := by
  -- it is made as the number times one
  have product : Float.ofNat n = n.toUInt64.toFloat * Float.ofBits 0x3FF0000000000000 := by
    show Float.ofScientific n false 0 = _
    rw [Float.ofScientific, dif_pos ⟨small, by decide⟩]
    rfl
  have one : (Float.ofBits 0x3FF0000000000000).toModel.unpack =
    .finite .positive (2 ^ 52) (-52) (by decide) := rfl
  rw [product, toFloat_eq small]
  show Float.ofModel (Float.Model.pack (UnpackedFloat.mul Format.binary64
    (Float.Model.pack (natural n)).unpack (Float.ofBits 0x3FF0000000000000).toModel.unpack)) = _
  rw [unpack_pack_natural small, one]
  rcases n.eq_zero_or_pos with rfl | positive
  · rfl
  · have rounded := roundWithAccuracy_eq (log2_shiftLeft_gap positive small) (gap_le n)
      (Nat.shiftLeft_pos_iff.mpr positive) .positive 52
    rw [natural_eq positive, UnpackedFloat.mul, ← rounded, Nat.shiftLeft_eq _ 52]
    rfl

theorem unpack_ofNat : (Float.ofNat n).toModel.unpack = natural n := by
  rw [ofNat_eq small]
  exact unpack_pack_natural small

end Small

theorem add_natural {a b : Nat} (small : a + b < 2 ^ 53) :
    UnpackedFloat.add Format.binary64 (natural a) (natural b) = natural (a + b) := by
  rcases a.eq_zero_or_pos with rfl | first
  · rcases b.eq_zero_or_pos with rfl | second
    · rfl
    · rw [Nat.zero_add, natural_eq second]
      rfl
  · rcases b.eq_zero_or_pos with rfl | second
    · rw [Nat.add_zero, natural_eq first]
      rfl
    · -- both are written with as many zeros as the one with more of them
      obtain ⟨zeros, most⟩ : ∃ zeros, zeros = max (gap a) (gap b) := ⟨_, rfl⟩
      have least : min (-(gap a : Int)) (-(gap b : Int)) = -(zeros : Int) := by omega
      have left : (-(gap a : Int) - -(zeros : Int)).toNat = zeros - gap a := by omega
      have right : (-(gap b : Int) - -(zeros : Int)).toNat = zeros - gap b := by omega
      have sum : a <<< zeros + b <<< zeros = (a + b) <<< zeros := by
        rw [Nat.shiftLeft_eq, Nat.shiftLeft_eq, Nat.shiftLeft_eq, Nat.add_mul]
      rw [natural_eq first, natural_eq second, UnpackedFloat.add]
      simp only [least, decreaseExponent, left, right, Sign.apply]
      rw [← Nat.shiftLeft_add, ← Nat.shiftLeft_add, Nat.add_sub_cancel' (by omega),
        Nat.add_sub_cancel' (by omega), ← normalize_natural small zeros, ← sum]
      rfl

/-- **Doubles of natural numbers are added exactly.** -/
theorem ofNat_add {a b : Nat} (small : a + b < 2 ^ 53) :
    Float.ofNat a + Float.ofNat b = Float.ofNat (a + b) := by
  show Float.ofModel (Float.Model.pack (UnpackedFloat.add Format.binary64
    (Float.ofNat a).toModel.unpack (Float.ofNat b).toModel.unpack)) = _
  rw [unpack_ofNat (by omega), unpack_ofNat (by omega), add_natural small, ofNat_eq small]

/-! ### Back to natural numbers -/

theorem scaled_shiftLeft (n k : Nat) : scaled (n <<< k) (-k) = n := by
  cases k with
  | zero => rfl
  | succ k => exact Nat.shiftLeft_shiftRight n (k + 1)

theorem isWhole_shiftLeft (n k : Nat) : isWhole (n <<< k) (-k) = true := by
  cases k with
  | zero => rfl
  | succ k =>
    show (n <<< (k + 1) % (1 <<< (k + 1)) == 0) = true
    rw [Nat.shiftLeft_eq, Nat.one_shiftLeft, Nat.mul_mod_left]
    rfl

section Small

variable {n : Nat} (small : n < 2 ^ 53)

include small

theorem parts_ofNat : ∃ significand exponent,
    parts (Float.ofNat n) = .finite false significand exponent ∧
      scaled significand exponent = n ∧ isWhole significand exponent = true := by
  rw [parts_eq, unpack_ofNat small]
  rcases n.eq_zero_or_pos with rfl | positive
  · exact ⟨0, -1074, rfl, rfl, rfl⟩
  · rw [natural_eq positive]
    exact ⟨_, _, rfl, scaled_shiftLeft n _, isWhole_shiftLeft n _⟩

theorem truncated_ofNat : truncated (Float.ofNat n) = .integer n := by
  obtain ⟨significand, exponent, parts, value, -⟩ := parts_ofNat small
  rw [truncated, parts]
  exact congrArg (fun value : Nat => Truncated.integer value) value

theorem naturalIndex?_ofNat : naturalIndex? (Float.ofNat n) = some n := by
  obtain ⟨significand, exponent, parts, value, whole⟩ := parts_ofNat small
  have limit : n < indexLimit := by
    rw [indexLimit]
    omega
  rw [naturalIndex?, parts]
  simp [value, whole, limit]

theorem ofNat_not_lt_zero : ¬ Float.ofNat n < 0.0 := by
  have zero : (0.0 : Float).toModel.unpack = .zero .positive := rfl
  show ¬ decide ((Float.ofNat n).toModel.unpack.lt (0.0 : Float).toModel.unpack) = true
  rw [unpack_ofNat small, zero]
  rcases n.eq_zero_or_pos with rfl | positive
  · exact Bool.false_ne_true
  · rw [natural_eq positive]
    exact Bool.false_ne_true

end Small

end DataBind.Number
