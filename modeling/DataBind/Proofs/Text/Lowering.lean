/-
**Lower case of ASCII letters.**

Only letters change, and they become letters: what is decided for the first code points holds of
every character.

* `forall_isAlpha`, `toLower_induction`: what holds of the letters among the first code points;
* `asciiLower_asciiLower`: text in lower case stays as it is;
* `toLower_eq_iff`, `mem_asciiLower_iff`: a character that is no letter comes from itself only.
-/

import DataBind.Text.Case

namespace DataBind.Text

/-- What holds of the first code points that are letters holds of every letter. -/
theorem forall_isAlpha {motive : Char → Prop}
    (letters : ∀ n < 123, (Char.ofNat n).isAlpha = true → motive (Char.ofNat n)) {c : Char}
    (alpha : c.isAlpha = true) : motive c := by
  have bound : c.toNat < 123 := by
    have cases := alpha
    unfold Char.isAlpha Char.isUpper Char.isLower at cases
    simp only [Bool.or_eq_true, Bool.and_eq_true, decide_eq_true_eq, UInt32.le_iff_toNat_le,
      ge_iff_le] at cases
    show c.val.toNat < 123
    rcases cases with ⟨_, upper⟩ | ⟨_, lower⟩
    · exact Nat.lt_of_le_of_lt upper (by decide)
    · exact Nat.lt_of_le_of_lt lower (by decide)
  have own := letters c.toNat bound
  rw [Char.ofNat_toNat] at own
  exact own alpha

theorem toLower_of_not_isAlpha {c : Char} (other : c.isAlpha = false) : c.toLower = c := by
  unfold Char.isAlpha at other
  rw [Bool.or_eq_false_iff] at other
  have upper := other.1
  unfold Char.isUpper at upper
  unfold Char.toLower
  rw [dif_neg]
  simpa using upper

/-- What holds of a character and of the lower case of all letters holds of its lower case. -/
theorem toLower_induction {motive : Char → Prop}
    (letters : ∀ n < 123, (Char.ofNat n).isAlpha = true → motive (Char.ofNat n).toLower) {c : Char}
    (own : motive c) : motive c.toLower := by
  cases alpha : c.isAlpha with
  | true => exact forall_isAlpha (motive := fun c => motive c.toLower) letters alpha
  | false =>
    rw [toLower_of_not_isAlpha alpha]
    exact own

theorem toLower_toLower (c : Char) : c.toLower.toLower = c.toLower := by
  cases alpha : c.isAlpha with
  | true =>
    refine forall_isAlpha (motive := fun c => c.toLower.toLower = c.toLower) ?_ alpha
    decide
  | false => rw [toLower_of_not_isAlpha alpha, toLower_of_not_isAlpha alpha]

theorem asciiLower_asciiLower (text : List Char) :
    asciiLower (asciiLower text) = asciiLower text := by
  rw [asciiLower, asciiLower, List.map_map]
  exact List.map_congr_left fun c _ => toLower_toLower c

/-- The characters of a name in lower case are characters of names. -/
theorem all_asciiLower {p : Char → Bool} {text : List Char}
    (letters : ∀ n < 123, (Char.ofNat n).isAlpha = true → p (Char.ofNat n).toLower = true)
    (all : ∀ c ∈ text, p c = true) : ∀ c ∈ asciiLower text, p c = true := by
  intro c member
  obtain ⟨d, inside, rfl⟩ := List.mem_map.mp member
  exact toLower_induction (motive := fun c => p c = true) letters (all d inside)

/-- A character that is no letter is the lower case of itself only. -/
theorem toLower_eq_iff {c d : Char} (other : d.isAlpha = false) : c.toLower = d ↔ c = d := by
  constructor
  · intro lower
    cases alpha : c.isAlpha with
    | true =>
      have letter : c.toLower.isAlpha = true :=
        forall_isAlpha (motive := fun c => c.toLower.isAlpha = true) (by decide) alpha
      rw [lower, other] at letter
      cases letter
    | false => rwa [toLower_of_not_isAlpha alpha] at lower
  · rintro rfl
    exact toLower_of_not_isAlpha other

theorem mem_asciiLower_iff {c : Char} (other : c.isAlpha = false) {text : List Char} :
    c ∈ asciiLower text ↔ c ∈ text := by
  simp [asciiLower, toLower_eq_iff other]

end DataBind.Text
