/-
**Sets of characters given by a boundary list.**

A set of characters is written as the ascending list of the code points at which membership
changes: the first boundary enters the set, the second leaves it, and so on.

* `within_nil`: the empty list is the empty set;
* `within_before`: below its first boundary a list contains nothing.
-/

namespace DataBind.Text

/-- Whether `point` lies in the set with these ascending boundaries. -/
def within : List Nat → Nat → Bool
  | [], _ => false
  | [first], point => first ≤ point
  | first :: last :: rest, point =>
    if point < last then first ≤ point else within rest point

@[simp] theorem within_nil (point : Nat) : within [] point = false := rfl

/-- Nothing below the first boundary is in the set. -/
theorem within_before {first point : Nat} (rest : List Nat) (before : point < first)
    (ascending : ∀ last ∈ rest.head?, first ≤ last) : within (first :: rest) point = false := by
  cases rest with
  | nil => simp [within]; omega
  | cons last others =>
    have order : first ≤ last := ascending last (by simp)
    have inside : point < last := by omega
    simp [within, inside]
    omega

end DataBind.Text
