/-
**What a reader takes from its input.**

A reader that takes something from the start of a list leaves a shorter rest; the proof of it stands
beside the rest, so that reading again from the rest ends.

* `Taken.within`: a rest that is short enough for one input is so for every longer one;
* `Taken.after`: two things taken one after the other are taken from the input of the first;
* `exists_of_map_eq_ok`, `exists_of_bind_eq_ok`: a result that is mapped or used and then succeeds
  comes from one that succeeds.
-/

namespace DataBind.Text

/-- A value taken from the start of a list of `length` elements, and the rest. -/
structure Taken (σ α : Type) (length : Nat) where
  value : α
  rest : List σ
  shorter : rest.length < length

namespace Taken

variable {σ α β : Type} {length : Nat}

/-- The same taken from a longer input. -/
def within (taken : Taken σ α length) {longer : Nat} (bound : length ≤ longer) :
    Taken σ α longer :=
  ⟨taken.value, taken.rest, Nat.lt_of_lt_of_le taken.shorter bound⟩

/-- The same rest with another value. -/
def map (f : α → β) (taken : Taken σ α length) : Taken σ β length :=
  ⟨f taken.value, taken.rest, taken.shorter⟩

/-- What is taken after something else, as taken from the input of both. -/
def after (first : Taken σ β length) (next : Taken σ α first.rest.length) : Taken σ α length :=
  next.within (Nat.le_of_lt first.shorter)

/-- What may take nothing after something else, as taken from the input of both. -/
def afterMaybe (first : Taken σ β length) (next : Taken σ α (first.rest.length + 1)) :
    Taken σ α length :=
  next.within first.shorter

/-- The rest is shorter than whatever the input is shorter than. -/
theorem lt_of_lt (taken : Taken σ α length) {longer : Nat} (bound : length < longer) :
    taken.rest.length < longer :=
  Nat.lt_trans taken.shorter bound

@[simp] theorem within_value (taken : Taken σ α length) {longer : Nat} (bound : length ≤ longer) :
    (taken.within bound).value = taken.value := rfl

@[simp] theorem within_rest (taken : Taken σ α length) {longer : Nat} (bound : length ≤ longer) :
    (taken.within bound).rest = taken.rest := rfl

@[simp] theorem after_value (first : Taken σ β length) (next : Taken σ α first.rest.length) :
    (first.after next).value = next.value := rfl

@[simp] theorem after_rest (first : Taken σ β length) (next : Taken σ α first.rest.length) :
    (first.after next).rest = next.rest := rfl

@[simp] theorem afterMaybe_value (first : Taken σ β length)
    (next : Taken σ α (first.rest.length + 1)) : (first.afterMaybe next).value = next.value := rfl

@[simp] theorem afterMaybe_rest (first : Taken σ β length)
    (next : Taken σ α (first.rest.length + 1)) : (first.afterMaybe next).rest = next.rest := rfl

@[simp] theorem map_value (f : α → β) (taken : Taken σ α length) :
    (taken.map f).value = f taken.value := rfl

@[simp] theorem map_rest (f : α → β) (taken : Taken σ α length) :
    (taken.map f).rest = taken.rest := rfl

end Taken

/-- A mapped result that succeeds comes from a result that succeeds. -/
theorem exists_of_map_eq_ok {ε α β : Type} {f : α → β} {result : Except ε α} {value : β}
    (mapped : result.map f = .ok value) : ∃ inner, result = .ok inner ∧ f inner = value := by
  cases result with
  | error cause => simp [Except.map] at mapped
  | ok inner =>
    simp only [Except.map, Except.ok.injEq] at mapped
    exact ⟨inner, rfl, mapped⟩

/-- A result that is used and then succeeds has succeeded. -/
theorem exists_of_bind_eq_ok {ε α β : Type} {result : Except ε α} {next : α → Except ε β}
    {value : β} (bound : result >>= next = .ok value) :
    ∃ inner, result = .ok inner ∧ next inner = .ok value := by
  cases result with
  | error cause => cases bound
  | ok inner => exact ⟨inner, rfl, bound⟩

end DataBind.Text
