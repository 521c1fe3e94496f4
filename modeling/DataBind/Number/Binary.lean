/-
**Doubles taken apart.**

A finite double is `± m · 2 ^ q` with natural `m` and integral `q`; all exact arithmetic on
doubles starts from these parts.

* `truncated_nonneg`: without a sign, truncation gives a number that is not negative;
* `naturalIndex?_lt`: what counts as an index is below `indexLimit`.
-/

namespace DataBind.Number

/-- The parts of a double. -/
inductive Parts where
  /-- No number. -/
  | nan
  /-- An infinity. -/
  | infinite (negative : Bool)
  /-- The number `± significand · 2 ^ exponent`. -/
  | finite (negative : Bool) (significand : Nat) (exponent : Int)
  deriving DecidableEq, Repr

/-- The weight of the leading bit of a normal significand. The bit itself is not stored. -/
def leadingBit : Nat := 1 <<< 52

/-- The parts of a double, read off its 64 bits: sign, eleven bits of exponent and 52 bits of
fraction. -/
def parts (x : Float) : Parts :=
  let bits := x.toBits.toNat
  let negative := bits >>> 63 == 1
  let field : Nat := (bits >>> 52) % 2048
  let fraction : Nat := bits % leadingBit
  if field = 2047 then
    if fraction = 0 then .infinite negative else .nan
  else if field = 0 then .finite negative fraction (-1074)
  else .finite negative (fraction + leadingBit) ((field : Int) - 1075)

/-- `significand · 2 ^ exponent` rounded toward zero. -/
def scaled (significand : Nat) (exponent : Int) : Nat :=
  match exponent with
  | .ofNat up => significand <<< up
  | .negSucc down => significand >>> (down + 1)

/-- Whether `significand · 2 ^ exponent` is an integer. -/
def isWhole (significand : Nat) (exponent : Int) : Bool :=
  match exponent with
  | .ofNat _ => true
  | .negSucc down => significand % (1 <<< (down + 1)) == 0

/-- A magnitude with a sign. -/
def signed (negative : Bool) (magnitude : Nat) : Int :=
  if negative then -(magnitude : Int) else magnitude

/-- Where a double lies among the integers: at the integer toward zero of it, or beyond them
all. -/
inductive Truncated where
  | nan
  | infinite (negative : Bool)
  | integer (value : Int)
  deriving DecidableEq, Repr

/-- A double rounded toward zero. -/
def truncated (x : Float) : Truncated :=
  match parts x with
  | .nan => .nan
  | .infinite negative => .infinite negative
  | .finite negative significand exponent =>
    .integer (signed negative (scaled significand exponent))

/-- Indices have 64 bits. -/
def indexLimit : Nat := 1 <<< 64

/-- A double as the index of an element: an integer from zero (of either sign) to below
`indexLimit`. -/
def naturalIndex? (x : Float) : Option Nat :=
  match parts x with
  | .finite negative significand exponent =>
    let magnitude := scaled significand exponent
    if isWhole significand exponent && (!negative || magnitude == 0) && magnitude < indexLimit then
      some magnitude
    else none
  | _ => none

/-- The power of two with an exponent between -1074 and 1023. -/
def powerOfTwo (exponent : Int) : Float :=
  if exponent < -1022 then Float.ofBits (UInt64.ofNat (1 <<< (exponent + 1074).toNat))
  else Float.ofBits (UInt64.ofNat ((exponent + 1023).toNat * leadingBit))

/-- The double `± significand · 2 ^ exponent`, for a significand of at most 53 bits. -/
def ofParts (negative : Bool) (significand : Nat) (exponent : Int) : Float :=
  let magnitude := Float.ofNat significand * powerOfTwo exponent
  if negative then -magnitude else magnitude

/-- The remainder of a division whose quotient is rounded toward zero; it has the sign of the
dividend. -/
def remainder (x y : Float) : Float :=
  match parts x, parts y with
  | .finite negative m p, .finite _ n q =>
    if n = 0 then 0.0 / 0.0
    else
      let least := if p ≤ q then p else q
      ofParts negative ((m <<< (p - least).toNat) % (n <<< (q - least).toNat)) least
  | .finite .., .infinite _ => x
  | _, _ => 0.0 / 0.0

/-- Truncation of a number without a sign is not negative. -/
theorem truncated_nonneg {x : Float} {significand : Nat} {exponent : Int}
    (same : parts x = .finite false significand exponent) :
    ∃ value : Nat, truncated x = .integer value :=
  ⟨scaled significand exponent, by simp [truncated, same, signed]⟩

/-- An index is below the limit. -/
theorem naturalIndex?_lt {x : Float} {index : Nat} (found : naturalIndex? x = some index) :
    index < indexLimit := by
  unfold naturalIndex? at found
  split at found
  · simp only [Option.ite_none_right_eq_some, Bool.and_eq_true, decide_eq_true_eq,
      Option.some.injEq] at found
    obtain ⟨⟨_, bound⟩, rfl⟩ := found
    exact bound
  · simp at found

end DataBind.Number
