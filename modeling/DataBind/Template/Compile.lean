/-
**Compiling a forest to a plan.**

The forest is walked in document order. Markup becomes literal steps; an element with bindings and
a block become steps whose inner plans are compiled from their own forests. After a start marker
the walk passes over its block.

* `compile`: the plan of a forest, given the blocks in it;
* `compile_nil`: nothing compiles to the empty plan.
-/

import DataBind.Block
import DataBind.Template.Attribute
import DataBind.Binding.Iteration

namespace DataBind.Template

open Markup

/-- The state of compiling one forest. -/
structure Compiling where
  draft : Draft
  /-- The end marker up to which the walk passes over nodes. -/
  skipUntil : Option NodeId
  warnings : List Warning
  error : Option CompileError

namespace Compiling

/-- The start of compiling. -/
def start : Compiling :=
  ⟨.empty, none, [], none⟩

/-- The state after a step that may fail. An error ends the walk. -/
def after {α : Type} (state : Compiling) (step : Checked α)
    (next : Compiling → α → Compiling × Action) : Compiling × Action :=
  let state := { state with warnings := state.warnings ++ step.warnings }
  match step.result with
  | .error error => ({ state with error := some error }, .stop)
  | .ok value => next state value

/-- The state with more markup. -/
def literal (state : Compiling) (markup : String) : Compiling :=
  { state with draft := state.draft.pushLiteral markup }

end Compiling

/-- The step of a binding that decides what its body becomes; other bindings have none. The plans
of inner forests are given by `inner`. -/
def scopeStep (inner : List Tree → Checked Plan) (binding : Binding) (body : List Tree) :
    Checked (Option Step) :=
  match binding.kind with
  | .showIf | .showIfNot => do
    let plan ← inner body
    return some (.guarded binding.expression plan)
  | .forEach =>
    match Binding.parseIteration binding.source with
    | .error error => Checked.fail (.objectLiteral binding.source error)
    | .ok iteration => do
      let plan ← inner body
      return some (.repeated (Expression.parse iteration.items) iteration.alias? plan)
  | .scope => do
    let plan ← inner body
    return some (.scoped binding.expression plan)
  | .text => return some (.text binding.expression)
  | .html => return some (.html binding.expression)
  | .attributes | .classes | .styles => return none

/-- What an element with bindings becomes. -/
structure ElementPlan where
  steps : List Step
  /-- Whether the children are part of the steps. Otherwise the walk goes on to them. -/
  isComplete : Bool

/-- The start tag of an element with bindings. -/
def startSteps (tag : String) (steps : List Step) (left : List Attribute) : List Step :=
  let literal :=
    if left.isEmpty then [] else [Step.attributes (attributesText left)]
  .literal ("<" ++ tag) :: steps ++ literal ++ [.literal (if isVoid tag then " />" else ">")]

/-- The binding that replaces or repeats the content of an element. -/
def contentBinding? (bindings : List Binding) : Option Binding :=
  bindings.find? fun binding =>
    binding.kind == .forEach || binding.kind == .text || binding.kind == .html

/-- What is between the tags of an element, outside of the binding that opens a scope. -/
def innerSteps (inner : List Tree → Checked Plan) (bindings : List Binding)
    (children : List Tree) : Checked (List Step) :=
  match contentBinding? bindings with
  | some binding => Option.toList <$> scopeStep inner binding children
  | none => inner children

/-- The content of an element and its end tag. -/
def contentSteps (inner : List Tree → Checked Plan) (tag : String) (bindings : List Binding)
    (children : List Tree) : Checked (List Step) := do
  let content ← innerSteps inner bindings children
  let content :=
    match bindings.find? fun binding => binding.kind == .scope with
    | some binding => [.scoped binding.expression content]
    | none => content
  return content ++ [.literal (tagEnd tag)]

/-- The steps of an element with bindings. -/
def elementPlan (inner : List Tree → Checked Plan) (tag source : String)
    (attributes : List Attribute) (children : List Tree) : Checked ElementPlan := do
  let bindings ← Binding.parseContainer source tag
  let (steps, left) ← Checked.lift (allBindingSteps bindings attributes)
  let opening := startSteps tag steps left
  let condition? := bindings.findSome? Binding.condition?
  let hasScope := bindings.any fun binding => binding.kind == .scope
  if condition?.isNone && !hasScope && (contentBinding? bindings).isNone then
    return ⟨opening, isVoid tag⟩
  else do
    let content ← if isVoid tag then pure [] else contentSteps inner tag bindings children
    let whole := opening ++ content
    match condition? with
    | some condition => return ⟨[.guarded condition whole], true⟩
    | none => return ⟨whole, true⟩

/-- The start tag of an element without bindings. -/
def literalTag (tag : String) (attributes : List Attribute) : String :=
  tagStart tag attributes ++ (if isVoid tag then " />" else ">")

/-- Visits an opening element. -/
def visitElement (config : Config) (inner : List Tree → Checked Plan) (state : Compiling)
    (tag : String) (attributes : List Attribute) (children : List Tree) : Compiling × Action :=
  match attributes.lookup config.bindingAttribute with
  | none => (state.literal (literalTag tag attributes), if isVoid tag then .skip else .descend)
  | some source =>
    let others := attributes.filter fun (name, _) => name != config.bindingAttribute
    state.after (elementPlan inner tag source others children) fun state element =>
      ({ state with draft := state.draft.extend element.steps },
        if element.isComplete then .skip else .descend)

/-- Visits a comment: a block as a whole, no end marker, and any other comment as it is. -/
def visitComment (config : Config) (index : Block.Index)
    (inner : Block.Index → List Tree → Checked Plan) (state : Compiling) (id : NodeId)
    (text : String) : Compiling × Action :=
  match Binding.parseDirective text config with
  | none => (state.literal (commentText text), .skip)
  | some .closing => (state, .skip)
  | some (.opening _) =>
    match index.find? id with
    | none => (state, .skip)
    | some block =>
      state.after (scopeStep (inner (index.erase id)) block.binding block.body) fun state step =>
        ({ state with
            draft := step.toList.foldl Draft.push state.draft
            skipUntil := some block.finish }, .skip)

/-- The visitor that compiles a forest. -/
def compileVisit (config : Config) (index : Block.Index)
    (inner : Block.Index → List Tree → Checked Plan) (state : Compiling) (visit : Visit) :
    Compiling × Action :=
  match state.skipUntil with
  | some finish =>
    if visit.isOpening && visit.node.id == finish then
      ({ state with skipUntil := none }, .skip)
    else (state, .skip)
  | none =>
    if !visit.isOpening then
      match visit.node.content with
      | .element tag _ => (state.literal (tagEnd tag), .descend)
      | _ => (state, .descend)
    else
      match visit.node.content with
      | .text text => ({ state with draft := state.draft.push (.escapedText (escape text)) }, .skip)
      | .comment text => visitComment config index inner state visit.node.id text
      | .raw tag attributes content =>
        ({ state with draft := state.draft.push (.raw (rawText tag attributes content)) }, .skip)
      | .declaration text => (state.literal (declarationText text), .skip)
      | .element tag attributes =>
        visitElement config (inner index) state tag attributes visit.node.children

/-- The plan of a compiled forest, or the error that ended compiling. -/
def Compiling.finish (state : Compiling) : Checked Plan :=
  match state.error with
  | some error => ⟨state.warnings, .error error⟩
  | none => ⟨state.warnings, .ok state.draft.plan⟩

/-- The plan of a forest, given the blocks in it. The body of a block is compiled without that
block, so the index gets smaller; the children of an element are lighter than the forest that they
are part of. -/
def compile (config : Config) (index : Block.Index) (nodes : List Tree) : Checked Plan :=
  let inner := fun fewer body =>
    if Block.Index.size fewer < index.size ∨
        Block.Index.size fewer = index.size ∧ Tree.weightAll body < Tree.weightAll nodes then
      compile config fewer body
    else pure []
  (walk (compileVisit config index inner) .start nodes).1.finish
termination_by (index.size, Tree.weightAll nodes)
decreasing_by
  rename_i smaller
  exact Prod.lex_def.mpr smaller

/-- Nothing compiles to the empty plan. -/
theorem compile_nil (config : Config) (index : Block.Index) :
    compile config index [] = pure [] := by
  rw [compile, walk_nil]
  rfl

end DataBind.Template
