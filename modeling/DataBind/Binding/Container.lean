/-
**The bindings of an element.**

The binding attribute of an element is an object literal. Entries of unknown kinds are passed over;
of entries of the same kind the first one counts, and the others are warned about. At most one
binding may control the content.

* `distinctKinds_nodup`: no kind is left twice.
-/

import DataBind.Binding.Basic
import DataBind.Binding.ObjectLiteral
import DataBind.Problem

namespace DataBind.Binding

/-- The binding of an entry, if its kind is known. -/
def ofEntry? (entry : String × String) : Option Binding :=
  (Kind.ofName? entry.1).map fun kind => ⟨kind, entry.2⟩

/-- The bindings whose kinds have not been seen; the others are warned about. -/
def distinctKinds (tag : String) (seen : List Kind) : List Binding → Checked (List Binding)
  | [] => pure []
  | binding :: rest =>
    if binding.kind ∈ seen then do
      Checked.warn (.duplicateBinding tag binding.kind.name)
      distinctKinds tag seen rest
    else do
      let others ← distinctKinds tag (binding.kind :: seen) rest
      return binding :: others

/-- The error of two bindings that both control the content. -/
def conflict? (bindings : List Binding) : Option CompileError :=
  match bindings.filter fun binding => binding.kind.controlsContent with
  | first :: second :: _ => some (.conflictingBindings first.kind.name second.kind.name)
  | _ => none

/-- An object literal that is the value of a binding, or the error that names it. -/
def entriesOf (source : String) : Except CompileError (List (String × String)) :=
  match parseObjectLiteral source with
  | .ok entries => .ok entries
  | .error error => .error (.objectLiteral source error)

/-- The bindings that an element's binding attribute holds. -/
def parseContainer (source tag : String) : Checked (List Binding) := do
  let entries ← Checked.lift (entriesOf source)
  let bindings ← distinctKinds tag [] (entries.filterMap ofEntry?)
  match conflict? bindings with
  | some error => Checked.fail error
  | none => return bindings

/-- No kind is left twice, and none that was seen before. -/
theorem distinctKinds_nodup {tag : String} {seen : List Kind} {bindings left : List Binding}
    (passed : (distinctKinds tag seen bindings).result = .ok left) :
    (left.map Binding.kind).Nodup ∧ ∀ binding ∈ left, binding.kind ∉ seen := by
  induction bindings generalizing seen left with
  | nil =>
    cases passed
    simp
  | cons binding rest ih =>
    unfold distinctKinds at passed
    split at passed
    · exact ih (by simpa [bind, Checked.warn] using passed)
    · rename_i unseen
      cases found : (distinctKinds tag (binding.kind :: seen) rest).result with
      | error error => simp [bind, found] at passed
      | ok others =>
        simp only [bind, found, pure, Except.ok.injEq] at passed
        subst passed
        obtain ⟨nodup, fresh⟩ := ih found
        refine ⟨?_, ?_⟩
        · simp only [List.map_cons, List.nodup_cons, List.mem_map, not_exists, not_and]
          refine ⟨fun other member same => ?_, nodup⟩
          exact fresh other member (by simp [same])
        · intro other member
          rcases List.mem_cons.mp member with rfl | member
          · exact unseen
          · exact fun inside => fresh other member (by simp [inside])

end DataBind.Binding
