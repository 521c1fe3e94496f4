/-
**Plans: what a template does when it is rendered.**

A plan is a list of steps, each of which writes a piece of the output. Markup that does not depend
on the data is written at once, and adjacent pieces of it are joined.

* `Draft.pushLiteral_pushLiteral`: markup after markup is one step;
* `Draft.extend_nil`: taking in no steps changes nothing.
-/

import DataBind.Expr.Source
import DataBind.Style

namespace DataBind.Template

/-- How the classes of an element depend on the data. -/
inductive ClassBinding where
  /-- Class names that are present under conditions. -/
  | conditional (entries : List (String × Expression))
  /-- An expression that gives the class names. -/
  | expression (names : Expression)
  deriving DecidableEq

/-- A step of a plan. -/
inductive Step where
  /-- Tags, comments and declarations. -/
  | literal (markup : String)
  /-- Text, escaped already. -/
  | escapedText (markup : String)
  /-- The attributes of an element that do not depend on the data. -/
  | attributes (markup : String)
  /-- A raw text element. -/
  | raw (markup : String)
  /-- An attribute whose value depends on the data. -/
  | attribute (name : String) (value : Expression)
  | classes (fixed : List String) (dynamic : ClassBinding)
  | styles (fixed : List Style.Declaration) (dynamic : List (String × Expression))
  /-- A part that is written if a condition holds. -/
  | guarded (condition : Expression) (plan : List Step)
  /-- A part that is written once for each item. -/
  | repeated (items : Expression) (alias? : Option String) (plan : List Step)
  /-- A part that is written with other data. -/
  | scoped (data : Expression) (plan : List Step)
  | text (value : Expression)
  | html (value : Expression)

/-- What a template does. -/
abbrev Plan : Type := List Step

mutual

/-- Whether two steps are equal; expressions are by their sources. -/
def Step.same : Step → Step → Bool
  | .literal first, .literal second => first == second
  | .escapedText first, .escapedText second => first == second
  | .attributes first, .attributes second => first == second
  | .raw first, .raw second => first == second
  | .attribute first value, .attribute second other => first == second && value == other
  | .classes fixed dynamic, .classes others binding =>
    fixed == others && decide (dynamic = binding)
  | .styles fixed dynamic, .styles others bindings => fixed == others && dynamic == bindings
  | .guarded first plan, .guarded second other => first == second && Plan.same plan other
  | .repeated first alias? plan, .repeated second other? other =>
    first == second && alias? == other? && Plan.same plan other
  | .scoped first plan, .scoped second other => first == second && Plan.same plan other
  | .text first, .text second => first == second
  | .html first, .html second => first == second
  | _, _ => false

/-- Whether two plans are equal. -/
def Plan.same : List Step → List Step → Bool
  | [], [] => true
  | first :: others, second :: rest => Step.same first second && Plan.same others rest
  | _, _ => false

end

/-! ### Plans under construction -/

/-- The steps of a plan under construction, the last one first. -/
structure Draft where
  reversed : List Step

namespace Draft

/-- The draft without steps. -/
def empty : Draft :=
  ⟨[]⟩

/-- The draft with one more step. -/
def push (draft : Draft) (step : Step) : Draft :=
  ⟨step :: draft.reversed⟩

/-- The draft with more markup, joined to the markup that the draft ends with. -/
def pushLiteral (draft : Draft) (markup : String) : Draft :=
  match draft.reversed with
  | .literal last :: rest => ⟨.literal (last ++ markup) :: rest⟩
  | steps => ⟨.literal markup :: steps⟩

/-- The draft with more steps, of which markup is joined. -/
def extend (draft : Draft) (steps : List Step) : Draft :=
  steps.foldl
    (fun draft step =>
      match step with
      | .literal markup => draft.pushLiteral markup
      | step => draft.push step)
    draft

/-- The plan of a finished draft. -/
def plan (draft : Draft) : Plan :=
  draft.reversed.reverse

/-- Markup after markup is one step. -/
theorem pushLiteral_pushLiteral (draft : Draft) (first second : String) :
    (draft.pushLiteral first).pushLiteral second = draft.pushLiteral (first ++ second) := by
  obtain ⟨steps⟩ := draft
  cases steps with
  | nil => simp [pushLiteral]
  | cons step rest => cases step <;> simp [pushLiteral, String.append_assoc]

@[simp] theorem extend_nil (draft : Draft) : draft.extend [] = draft := rfl

end Draft

end DataBind.Template
