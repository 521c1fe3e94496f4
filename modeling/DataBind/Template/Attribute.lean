/-
**The attributes of an element with bindings.**

Bindings of attributes, classes and styles take over what an element has literally: each takes the
literal attributes it replaces away from those that are left to be written as they are.

* `takeAttribute_of_not_mem`: taking an absent attribute leaves the others as they are.
-/

import DataBind.Binding.Container
import DataBind.Markup.Print
import DataBind.Template.Plan
import DataBind.Text.Search

namespace DataBind.Template

open Markup

/-- The first attribute of a name, if any, and the other attributes. -/
def takeAttribute (name : String) : List Attribute → Option String × List Attribute
  | [] => (none, [])
  | (key, value) :: rest =>
    if key = name then (some value, rest)
    else
      let (taken, others) := takeAttribute name rest
      (taken, (key, value) :: others)

/-- The expressions of the values of an object literal. -/
def expressionsOf (entries : List (String × String)) : List (String × Expression) :=
  entries.map fun (key, source) => (key, Expression.parse source)

/-- Whether a key names a class. -/
def mentions (entries : List (String × Expression)) (name : String) : Bool :=
  entries.any fun (names, _) => (Text.words names).contains name

/-- The step of a class binding, given the value of the literal attribute: the literal classes that
no key mentions stay. -/
def classStep (source literal : String) : Except CompileError Step :=
  let fixed := Text.distinct (Text.words literal)
  let source := Text.trimmed source
  match source.toList with
  | '\x7b' :: _ =>
    (Binding.entriesOf source).map fun entries =>
      let dynamic := expressionsOf entries
      .classes (fixed.filter fun name => !mentions dynamic name) (.conditional dynamic)
  | _ => .ok (.classes fixed (.expression (Expression.parse source)))

/-- The step of a style binding, given the value of the literal attribute: the literal declarations
of other properties stay. -/
def styleStep (source literal : String) : Except CompileError Step :=
  (Binding.entriesOf source).map fun entries =>
    let dynamic :=
      entries.map fun (key, value) => (Style.propertyName key, Expression.parse value)
    let fixed :=
      (Style.parseDeclarations literal).filter fun (property, _) =>
        !dynamic.any fun (name, _) => name == property
    .styles fixed dynamic

/-- The steps of an attribute binding, and the attributes it does not replace. -/
def attributeSteps (entries : List (String × String)) (attributes : List Attribute) :
    List Step × List Attribute :=
  (entries.map fun (name, source) => .attribute name (Expression.parse source),
    entries.foldl (fun left (name, _) => (takeAttribute name left).2) attributes)

/-- The steps that one binding adds to a start tag, and the literal attributes that are left. -/
def bindingSteps (binding : Binding) (attributes : List Attribute) :
    Except CompileError (List Step × List Attribute) :=
  match binding.kind with
  | .classes => do
    let (literal, left) := takeAttribute "class" attributes
    let step ← classStep binding.source (literal.getD "")
    return ([step], left)
  | .styles => do
    let (literal, left) := takeAttribute "style" attributes
    let step ← styleStep binding.source (literal.getD "")
    return ([step], left)
  | .attributes => do
    let entries ← Binding.entriesOf binding.source
    return attributeSteps entries attributes
  | _ => .ok ([], attributes)

/-- The steps that bindings add to a start tag, and the literal attributes that are left. -/
def allBindingSteps : List Binding → List Attribute →
    Except CompileError (List Step × List Attribute)
  | [], attributes => .ok ([], attributes)
  | binding :: rest, attributes => do
    let (steps, left) ← bindingSteps binding attributes
    let (others, last) ← allBindingSteps rest left
    return (steps ++ others, last)

/-- Taking an absent attribute leaves the others as they are. -/
theorem takeAttribute_of_not_mem {name : String} {attributes : List Attribute}
    (absent : name ∉ attributes.map Prod.fst) :
    takeAttribute name attributes = (none, attributes) := by
  induction attributes with
  | nil => rfl
  | cons first rest ih =>
    obtain ⟨key, value⟩ := first
    simp only [List.map_cons, List.mem_cons, not_or] at absent
    simp [takeAttribute, ih absent.2, Ne.symm absent.1]

end DataBind.Template
