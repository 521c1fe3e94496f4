/-
**Templates: compiled once, rendered any number of times.**

* `ofMarkup`, `ofFragment`, `ofNodes`: from markup, a fragment, or some of its nodes;
* `renderWith_root`: rendering in the root context of a value is rendering for the value.
-/

import DataBind.Template.Compile
import DataBind.Template.Render

namespace DataBind

open Markup

/-- A compiled template. -/
structure Template where
  plan : Template.Plan
  config : Config
  evaluator : Evaluator
  /-- What was odd about the template, in the order found. -/
  warnings : List Warning

namespace Template

/-- The plan of a forest on its own: its blocks are matched and it is compiled. -/
def planOf (config : Config) (nodes : List Tree) : Checked Plan := do
  let index ← Block.matchBlocks config nodes
  compile config index nodes

/-- The template of a forest. -/
def ofTrees (evaluator : Evaluator) (config : Config) (nodes : List Tree) : Checked Template :=
  let compiled := planOf config nodes
  ⟨compiled.warnings, compiled.result.map fun plan => ⟨plan, config, evaluator, compiled.warnings⟩⟩

/-- The template of some nodes of a fragment, and all below them. -/
def ofNodes (evaluator : Evaluator) (config : Config) (fragment : Fragment)
    (nodes : List NodeId) : Checked Template :=
  ofTrees evaluator config (fragment.trees nodes)

/-- The template of a fragment. -/
def ofFragment (evaluator : Evaluator) (config : Config) (fragment : Fragment) :
    Checked Template :=
  ofNodes evaluator config fragment fragment.roots

/-- The template of markup. -/
def ofMarkup (evaluator : Evaluator) (config : Config) (markup : String) : Checked Template :=
  match Markup.parse markup with
  | .error error => Checked.fail (.markup error)
  | .ok fragment => ofFragment evaluator config fragment

/-- The template with another expression language. -/
def withEvaluator (template : Template) (evaluator : Evaluator) : Template :=
  { template with evaluator }

/-- What rendering a template needs. -/
def runtime (template : Template) : Runtime :=
  ⟨template.evaluator, template.config⟩

/-- The output of a template in a context whose `$data` is replaced. -/
def renderWith (template : Template) (data : Value) (context : Context) : Output :=
  renderAll template.runtime (context.rescoped data) template.plan

/-- The output of a template for a value. -/
def render (template : Template) (data : Value) : Output :=
  renderAll template.runtime (Context.root data) template.plan

/-- Rendering in the root context of a value is rendering for the value. -/
theorem renderWith_root (template : Template) (data : Value) :
    template.renderWith data (Context.root data) = template.render data := rfl

end Template

end DataBind
