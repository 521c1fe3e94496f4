/-
**Scans and their loops.**

A scan ends with a result, with an error in its text, or with a slice that must not be taken; or it
goes on forever. A loop repeats one step until this gives a result, and nothing bounds how often.

* `loop`: the outcome of a loop, none if it never ends, by iteration of a partial function;
* `RunsTo`: a loop that ends with a result or an error in the text, with the cursor strictly further
  on after every iteration but the last;
* `RunsTo.loop_eq`: what the outcome of such a loop is;
* `RunsTo.of_step_eq`: what lies between a cursor and the next thing read has no effect.
-/

import Mathlib.Data.PFun

namespace DataBind.Cursor

variable {ε α β : Type}

/-! ### Outcomes -/

/-- What stops a scan before its end. -/
inductive Stop (ε : Type) where
  /-- A slice with a bound that is out of range or inside of a character. -/
  | badSlice
  /-- An error in the text. -/
  | fault (cause : ε)

/-- The outcome of a scan; none if it goes on forever. -/
abbrev Scanned (ε α : Type) : Type :=
  ExceptT (Stop ε) Option α

/-- What has been found, or an error if nothing has. -/
def orError (cause : ε) : Option α → Except ε α
  | some value => .ok value
  | none => .error cause

namespace Scanned

/-- A scan that takes a slice it must not take. -/
def badSlice : Scanned ε α :=
  throw .badSlice

/-- A scan that ends with an error in the text. -/
def fault (cause : ε) : Scanned ε α :=
  throw (.fault cause)

/-- A scan that ends with a result or with an error in the text. -/
def ofExcept : Except ε α → Scanned ε α
  | .ok value => pure value
  | .error cause => fault cause

/-- A scan that ends with what has been found, or with an error if nothing has. -/
def found (cause : ε) (read : Option α) : Scanned ε α :=
  ofExcept (orError cause read)

@[simp] theorem fault_bind (cause : ε) (next : α → Scanned ε β) :
    fault cause >>= next = fault cause := rfl

@[simp] theorem badSlice_bind (next : α → Scanned ε β) :
    (badSlice : Scanned ε α) >>= next = badSlice := rfl

@[simp] theorem found_none (cause : ε) : found cause (none : Option α) = fault cause := rfl

@[simp] theorem found_some (cause : ε) (value : α) : found cause (some value) = pure value := rfl

@[simp] theorem ofExcept_ok (value : α) : ofExcept (.ok value : Except ε α) = pure value := rfl

@[simp] theorem ofExcept_error (cause : ε) :
    ofExcept (.error cause : Except ε α) = fault cause := rfl

end Scanned

open Scanned

/-! ### Loops -/

section Loops

variable {σ : Type} {cursor : σ → Nat} {step : σ → Scanned ε (σ ⊕ α)}

/-- What comes of one iteration: the outcome of the loop, or the state to go on from. -/
def turn (step : σ → Scanned ε (σ ⊕ α)) (state : σ) : Part (Except (Stop ε) α ⊕ σ) :=
  match (step state).run with
  | none => .none
  | some (.error stop) => .some (.inl (.error stop))
  | some (.ok (.inr value)) => .some (.inl (.ok value))
  | some (.ok (.inl next)) => .some (.inr next)

/-- Repeats a step until it gives a result. -/
noncomputable def loop (step : σ → Scanned ε (σ ⊕ α)) (state : σ) : Scanned ε α :=
  @Part.toOption _ (PFun.fix (turn step) state) (Classical.propDecidable _)

/-- A loop comes to an end from a state: every iteration before the last moves the cursor strictly
forward, and the last one gives a result or finds an error in the text. -/
inductive RunsTo (cursor : σ → Nat) (step : σ → Scanned ε (σ ⊕ α)) : σ → Except ε α → Prop
  | ends {state : σ} {value : α} :
      step state = pure (.inr value) → RunsTo cursor step state (.ok value)
  | fails {state : σ} {cause : ε} :
      step state = fault cause → RunsTo cursor step state (.error cause)
  | goesOn {state next : σ} {result : Except ε α} :
      step state = pure (.inl next) → cursor state < cursor next → RunsTo cursor step next result →
      RunsTo cursor step state result

/-- The outcome of a loop that comes to an end is one of its iteration as a partial function. -/
theorem RunsTo.mem_fix {state : σ} {result : Except ε α} (runs : RunsTo cursor step state result) :
    (result.mapError .fault : Except (Stop ε) α) ∈ PFun.fix (turn step) state := by
  induction runs with
  | ends stepped =>
    refine PFun.fix_stop ?_
    rw [turn, stepped]
    exact Part.mem_some _
  | fails stepped =>
    refine PFun.fix_stop ?_
    rw [turn, stepped]
    exact Part.mem_some _
  | goesOn stepped _ _ ih =>
    refine PFun.mem_fix_iff.mpr (Or.inr ⟨_, ?_, ih⟩)
    rw [turn, stepped]
    exact Part.mem_some _

/-- **A loop that comes to an end** has the outcome it comes to. -/
theorem RunsTo.loop_eq {state : σ} {result : Except ε α} (runs : RunsTo cursor step state result) :
    loop step state = ofExcept result := by
  have outcome := (@Part.toOption_eq_some_iff _ _ (Classical.propDecidable _) _).mpr runs.mem_fix
  rw [loop, outcome]
  cases result with
  | ok value => rfl
  | error cause => rfl

/-- A state runs as another one does if its next iteration is that of the other, behind it. -/
theorem RunsTo.of_step_eq {state other : σ} {result : Except ε α}
    (runs : RunsTo cursor step other result) (same : step state = step other)
    (behind : cursor state ≤ cursor other) : RunsTo cursor step state result := by
  cases runs with
  | ends stepped => exact .ends (same.trans stepped)
  | fails stepped => exact .fails (same.trans stepped)
  | goesOn stepped forward further =>
    exact .goesOn (same.trans stepped) (Nat.lt_of_le_of_lt behind forward) further

end Loops

end DataBind.Cursor
