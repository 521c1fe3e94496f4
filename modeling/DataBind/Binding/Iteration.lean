/-
**The value of a `foreach` binding.**

Either the items alone, or an object literal with the items under `data` and a name for each item
under `as`.

* `parseIteration_plain`: what does not start with a brace is the items.
-/

import DataBind.Binding.ObjectLiteral

namespace DataBind.Binding

open DataBind.Text

/-- The items of an iteration, and the name that each of them has inside. -/
structure Iteration where
  items : String
  alias? : Option String
  deriving DecidableEq, Repr

/-- Takes in an entry of the object form. -/
def Iteration.add (iteration : Iteration) (entry : String × String) : Iteration :=
  if entry.1 = "data" then { iteration with items := entry.2 }
  else if entry.1 = "as" then
    { iteration with
      alias? := some (match unquote? entry.2.toList with
        | some name => String.ofList name
        | none => entry.2) }
  else iteration

/-- The iteration that a binding's value describes; without items there are none. -/
def parseIteration (source : String) : Except LiteralError Iteration :=
  let text := trimmed source
  match text.toList with
  | '\x7b' :: _ =>
    (parseObjectLiteral text).map fun entries => entries.foldl Iteration.add ⟨"undefined", none⟩
  | _ => .ok ⟨text, none⟩

/-- What does not start with a brace is the items. -/
theorem parseIteration_plain {source : String}
    (plain : (trimmed source).toList.head? ≠ some '\x7b') :
    parseIteration source = .ok ⟨trimmed source, none⟩ := by
  unfold parseIteration
  simp only
  split
  · simp_all
  · rfl

end DataBind.Binding
