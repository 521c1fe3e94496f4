/-
**Bindings: what a template says about its elements.**

* `Kind.ofName?_name`: a kind is found under its name;
* `Kind.controlsContent`: the kinds of which an element has at most one.
-/

import DataBind.Expr.Source

namespace DataBind.Binding

/-- The kinds of bindings. -/
inductive Kind where
  | showIf | showIfNot | forEach | scope | text | html | attributes | classes | styles
  deriving DecidableEq, Repr

namespace Kind

/-- The name of a kind in templates. -/
def name : Kind → String
  | .showIf => "if"
  | .showIfNot => "ifnot"
  | .forEach => "foreach"
  | .scope => "with"
  | .text => "text"
  | .html => "html"
  | .attributes => "attr"
  | .classes => "css"
  | .styles => "style"

/-- All kinds. -/
def all : List Kind :=
  [.showIf, .showIfNot, .forEach, .scope, .text, .html, .attributes, .classes, .styles]

/-- The kind of a name. -/
def ofName? (wanted : String) : Option Kind :=
  all.find? fun kind => kind.name == wanted

/-- Whether a kind decides what an element contains; an element has at most one such binding. -/
def controlsContent : Kind → Bool
  | .showIf | .showIfNot | .forEach | .text | .html => true
  | _ => false

/-- Whether a kind can be written as a comment. -/
def isContainerless : Kind → Bool
  | .attributes | .classes | .styles => false
  | _ => true

/-- A kind is found under its name. -/
theorem ofName?_name (kind : Kind) : ofName? kind.name = some kind := by
  cases kind <;> decide

end Kind

end DataBind.Binding

namespace DataBind

/-- A binding: its kind and the source of its value. -/
structure Binding where
  kind : Binding.Kind
  source : String
  deriving DecidableEq, Repr

namespace Binding

/-- The condition of a binding that shows or hides. -/
def condition? (binding : Binding) : Option Expression :=
  match binding.kind with
  | .showIf => some (Expression.parse binding.source)
  | .showIfNot => some (Expression.parseNegated binding.source)
  | _ => none

/-- The expression of a binding: its condition, or its source as an expression. -/
def expression (binding : Binding) : Expression :=
  binding.condition?.getD (Expression.parse binding.source)

end Binding

end DataBind
