/-
**The passes that compiling a forest leads to.**

A forest is compiled by one walk. Where the walk meets a block or an element that needs a plan of
what is inside, that is compiled by a pass of its own, with the blocks that are known already.

* `Meets`: a pass meets a node, in a state of its walk;
* `Pass`: the forests that are compiled, each with its blocks, in compiling a forest;
* `emits_of_meets`: what a visit adds to the draft is kept until the end of the pass;
* `Part`: what every pass is given: a part of the forest, and the blocks in it;
* `elementPlan_eq`, `elementPlan_of_hasPlan`: the plan of an element is made in three parts, and
  holds that of its children;
* `Pass.part`: of a template that compiles, every pass has its part and succeeds.
-/

import DataBind.Proofs.Markup.Asking
import DataBind.Proofs.Template.Assembly

namespace DataBind

namespace Binding.Kind

/-- Whether the step of a binding holds the plan of its body. -/
def hasPlan : Kind → Bool
  | .showIf | .showIfNot | .forEach | .scope => true
  | _ => false

/-- Whether a binding writes a value in place of its body. -/
def isValue : Kind → Bool
  | .text | .html => true
  | _ => false

end Binding.Kind

namespace Template

open Markup Markup.Tree Block Checked

variable {config : Config}

/-- The visitor of the walk that compiles a forest. -/
def passVisit (config : Config) (index : Block.Index) (nodes : List Tree) :
    Compiling → Visit → Compiling × Action :=
  compileVisit config index (compiledInside config index nodes)

/-- Compiling a forest meets a node: its opening is visited, and not passed over with a block. -/
structure Meets (config : Config) (index : Block.Index) (nodes : List Tree) (state : Compiling)
    (parent : Option Tree) (node : Tree) : Prop where
  visited : (state, ⟨node, parent, true⟩) ∈ asked (passVisit config index nodes) .start nodes
  active : state.skipUntil = none

/-- An element whose children have a plan of their own: it can have children, some binding decides
about them or gives them a scope, and none writes a value in their place. -/
structure Scoping (config : Config) (node : Tree) (tag : String) (bindings : List Binding) :
    Prop where
  element : ∃ attributes source, node.content = .element tag attributes ∧
    attributes.lookup config.bindingAttribute = some source ∧
    (Binding.parseContainer source tag).result = .ok bindings
  notVoid : isVoid tag = false
  planned : ∃ binding ∈ bindings, binding.kind.hasPlan = true
  shown : ∀ binding ∈ bindings, binding.kind.isValue = false

/-- The tag and the bindings are those of the element. -/
theorem Scoping.eq {node : Tree} {tag name source : String} {attributes : List Attribute}
    {bindings known : List Binding} (scoping : Scoping config node name known)
    (content : node.content = .element tag attributes)
    (bound : attributes.lookup config.bindingAttribute = some source)
    (parsed : (Binding.parseContainer source tag).result = .ok bindings) :
    name = tag ∧ known = bindings := by
  obtain ⟨_, _, same, found, also⟩ := scoping.element
  rw [content] at same
  cases same
  rw [bound] at found
  cases found
  rw [parsed] at also
  cases also
  exact ⟨rfl, rfl⟩

/-- The forest inside of a node that is compiled where the node is met, with the blocks that it is
given: the body of a block, or the children of an element. -/
inductive Inner (config : Config) (index : Block.Index) : Tree → Block.Index → List Tree → Prop
  | body {start : Tree} {binding : Binding} {block : Block} :
      directive? config start = some (.opening binding) → binding.kind.hasPlan = true →
      index.find? start.id = some block →
      Inner config index start (index.erase start.id) block.body
  | children {element : Tree} {tag : String} {bindings : List Binding} :
      Scoping config element tag bindings → Inner config index element index element.children

/-- The forests that are compiled in compiling a forest, with the blocks that each is given: the
forest itself, and what is inside of the nodes that are met. -/
inductive Pass (config : Config) (index : Block.Index) (nodes : List Tree) :
    Block.Index → List Tree → Prop
  | whole : Pass config index nodes index nodes
  | inner {given deeper : Block.Index} {forest content : List Tree} {state : Compiling}
      {parent : Option Tree} {node : Tree} :
      Pass config index nodes given forest → Meets config given forest state parent node →
      Inner config given node deeper content → Pass config index nodes deeper content

/-! ### What a visit leaves behind -/

/-- A state comes before another: an error stays, and the draft has grown. -/
structure Compiling.Before (state later : Compiling) : Prop where
  error : later.error = none → state.error = none
  draft : ∃ more, later.draft = state.draft.extend more

namespace Compiling.Before

theorem refl (state : Compiling) : Before state state :=
  ⟨fun clean => clean, [], rfl⟩

theorem trans {state middle later : Compiling} (first : Before state middle)
    (second : Before middle later) : Before state later := by
  obtain ⟨early, grown⟩ := first.draft
  obtain ⟨late, more⟩ := second.draft
  exact ⟨fun clean => first.error (second.error clean), early ++ late,
    by rw [more, grown, extend_append]⟩

/-- A state that is changed in its draft only. -/
theorem of_extend {state later : Compiling} (steps : List Step) (error : later.error = state.error)
    (draft : later.draft = state.draft.extend steps) : Before state later :=
  ⟨fun clean => error ▸ clean, steps, draft⟩

/-- A step that may fail leaves the state before it behind. -/
theorem after {α : Type} {state : Compiling} (step : Checked α)
    {next : Compiling → α → Compiling × Action}
    (kept : ∀ middle value, step.result = .ok value → Before middle (next middle value).1) :
    Before state (state.after step next).1 := by
  obtain ⟨warnings, _ | value⟩ := step
  · exact ⟨fun clean => (by cases clean), ⟨[], rfl⟩⟩
  · exact (of_extend [] rfl rfl : Before state { state with
      warnings := state.warnings ++ warnings }).trans (kept _ value rfl)

end Compiling.Before

/-- **No visit of the compiler takes back what has been found.** -/
theorem before_compileVisit (index : Block.Index) (inner : Block.Index → List Tree → Checked Plan)
    (state : Compiling) (visit : Visit) :
    state.Before (compileVisit config index inner state visit).1 := by
  obtain ⟨⟨id, content, children⟩, parent, isOpening⟩ := visit
  cases skipping : state.skipUntil with
  | some finish =>
    rw [compileVisit, skipping]
    simp only
    split
    · exact .of_extend [] rfl rfl
    · exact .refl state
  | none =>
    cases isOpening with
    | false =>
      rw [compileVisit, skipping]
      cases content with
      | element tag attributes => exact .of_extend [.literal (tagEnd tag)] rfl rfl
      | _ => exact .refl state
    | true =>
      rw [compileVisit_opening skipping]
      cases content with
      | text text => exact .of_extend [.escapedText (escape text)] rfl rfl
      | raw tag attributes text => exact .of_extend [.raw (rawText tag attributes text)] rfl rfl
      | declaration text => exact .of_extend [.literal (declarationText text)] rfl rfl
      | comment text =>
        show state.Before (visitComment config index inner state id text).1
        unfold visitComment
        split
        · exact .of_extend [.literal (commentText text)] rfl rfl
        · exact .refl state
        · split
          · exact .refl state
          · rename_i block _
            refine .after _ fun middle step made => ?_
            exact .of_extend step.toList rfl (foldl_push_scopeStep made middle.draft)
      | element tag attributes =>
        show state.Before (visitElement config (inner index) state tag attributes children).1
        unfold visitElement
        split
        · exact .of_extend [.literal (literalTag tag attributes)] rfl rfl
        · exact .after _ fun middle element _ => .of_extend element.steps rfl rfl

/-- The visit of a node adds steps to the draft of a pass, which the plan of the pass goes on
from. -/
structure Emits (config : Config) (index : Block.Index) (nodes : List Tree) (state : Compiling)
    (parent : Option Tree) (node : Tree) (steps : List Step) : Prop where
  draft : (passVisit config index nodes state ⟨node, parent, true⟩).1.draft =
    state.draft.extend steps
  kept : ∃ more, (compile config index nodes).result =
    .ok ((state.draft.extend steps).extend more).plan

/-- Of a pass that succeeds, no visit has failed, and what it adds to the draft is kept. -/
theorem emits_of_meets {index : Block.Index} {nodes : List Tree} {plan : Plan}
    (compiled : (compile config index nodes).result = .ok plan) {state : Compiling}
    {parent : Option Tree} {node : Tree} (met : Meets config index nodes state parent node) :
    (passVisit config index nodes state ⟨node, parent, true⟩).1.error = none ∧
      ∀ steps, (passVisit config index nodes state ⟨node, parent, true⟩).1.draft =
        state.draft.extend steps → Emits config index nodes state parent node steps := by
  have before := final_of_asked Compiling.Before.refl (fun _ _ _ => Compiling.Before.trans)
    (before_compileVisit index (compiledInside config index nodes)) met.visited
  obtain ⟨more, grown⟩ := before.draft
  have walked : compile config index nodes =
      (walk (passVisit config index nodes) .start nodes).1.finish := by
    rw [compile_eq, walk_eq_traverseAll]
    rfl
  rw [walked, Compiling.finish] at compiled
  cases failed : (walk (passVisit config index nodes) .start nodes).1.error with
  | some error =>
    rw [failed] at compiled
    cases compiled
  | none =>
    refine ⟨before.error failed, fun steps added => ⟨added, more, ?_⟩⟩
    rw [walked, Compiling.finish, failed]
    show Except.ok (walk (passVisit config index nodes) .start nodes).1.draft.plan = _
    rw [← added]
    exact congrArg (fun draft : Draft => Except.ok draft.plan) grown

/-! ### What every pass is given -/

/-- A part of a forest with its blocks: they are among those of the forest, and found. -/
structure Part (config : Config) (blocks : List Block) (nodes : List Tree) (inside : Block.Index)
    (forest : List Tree) : Prop where
  pairs : ∃ (loose : Bool) (few : List Block) (dangling : List Tree),
    Pairs config loose forest few dangling ∧ few ⊆ blocks ∧
      ∀ block ∈ few, inside.find? block.start = some block
  sublist : (subtreesAll forest).Sublist (subtreesAll nodes)

namespace Part

variable {blocks : List Block} {nodes forest : List Tree} {inside : Block.Index}

theorem distinct (part : Part config blocks nodes inside forest) (whole : Distinct nodes) :
    Distinct forest :=
  whole.sublist (part.sublist.map Tree.id)

/-- A part of a forest compiles to what recursion gives. -/
theorem compile_eq (part : Part config blocks nodes inside forest) (whole : Distinct nodes) :
    compile config inside forest = assembled config forest := by
  obtain ⟨loose, few, dangling, pairs, _, found⟩ := part.pairs
  exact compile_eq_assembled loose few dangling inside (part.distinct whole) pairs found

/-- A forest is a part of itself. -/
theorem whole {loose : Bool} {dangling : List Tree}
    (pairs : Pairs config loose nodes blocks dangling)
    (found : ∀ block ∈ blocks, inside.find? block.start = some block) :
    Part config blocks nodes inside nodes :=
  ⟨⟨loose, blocks, dangling, pairs, List.Subset.refl _, found⟩, List.Sublist.refl _⟩

theorem leafy (part : Part config blocks nodes inside forest) (whole : Leafy nodes) :
    Leafy forest := fun tree member =>
  whole tree (part.sublist.subset member)

/-- What is below a node of a part is a part. -/
theorem children (part : Part config blocks nodes inside forest) {node : Tree}
    (member : node ∈ subtreesAll forest) : Part config blocks nodes inside node.children := by
  obtain ⟨_, few, _, pairs, subset, found⟩ := part.pairs
  obtain ⟨loose, below, deeper, paired, fewer⟩ := pairs.exists_pairs_children member
  exact ⟨⟨loose, below, deeper, paired, fun _ here => subset (fewer here),
    fun block here => found block (fewer here)⟩,
    (subtreesAll_children_sublist member).trans part.sublist⟩

/-- **The block of a start marker in a part**: it is found, and its body is a part, whose blocks are
found without it too. -/
theorem body (part : Part config blocks nodes inside forest) (whole : Distinct nodes) {start : Tree}
    (member : start ∈ subtreesAll forest) {binding : Binding}
    (opening : directive? config start = some (.opening binding)) :
    ∃ block ∈ blocks, inside.find? start.id = some block ∧ block.start = start.id ∧
      block.binding = binding ∧ Part config blocks nodes (inside.erase start.id) block.body := by
  obtain ⟨_, few, _, pairs, subset, found⟩ := part.pairs
  obtain ⟨block, here, same, bound⟩ := pairs.exists_block_of_opening member opening
  obtain ⟨inner, paired, fewer, within⟩ := pairs.exists_pairs_body here
  have absent := (markers_not_mem_body (pairs.span_nodup (part.distinct whole) here)).1
  refine ⟨block, subset here, same ▸ found block here, same, bound,
    ⟨false, inner, [], paired, fun _ deep => subset (fewer deep), fun other deep => ?_⟩,
    within.trans part.sublist⟩
  have different : other.start ≠ start.id := fun equal =>
    absent (same ▸ equal ▸ paired.span_subset deep (start_mem_span other))
  rw [find?_erase_of_ne different]
  exact found other (fewer deep)

end Part

/-! ### Steps of inner plans -/

/-- The step that a binding makes of the plan of its body. -/
def stepOf? (binding : Binding) (plan : Plan) : Option Step :=
  match binding.kind with
  | .showIf | .showIfNot => some (.guarded binding.expression plan)
  | .scope => some (.scoped binding.expression plan)
  | .forEach =>
    match Binding.parseIteration binding.source with
    | .ok iteration =>
      some (.repeated (Expression.parse iteration.items) iteration.alias? plan)
    | .error _ => none
  | _ => none

/-- A binding whose step holds a plan makes it of the plan of its body. -/
theorem stepOf?_of_scopeStep {inner : List Tree → Checked Plan} {binding : Binding}
    {body : List Tree} {made : Option Step} (planned : binding.kind.hasPlan = true)
    (stepped : (scopeStep inner binding body).result = .ok made) :
    ∃ plan step, (inner body).result = .ok plan ∧ made = some step ∧
      stepOf? binding plan = some step := by
  obtain ⟨kind, source⟩ := binding
  rcases scopeStep_cases stepped with ⟨plan, compiled, kinds⟩ | ⟨rfl, _⟩ | ⟨rfl, _⟩ | ⟨kinds, _⟩
  · refine ⟨plan, ?_⟩
    rcases kinds with ⟨rfl | rfl, rfl⟩ | ⟨rfl, rfl⟩ | ⟨iteration, rfl, parsed, rfl⟩
    · exact ⟨_, compiled, rfl, rfl⟩
    · exact ⟨_, compiled, rfl, rfl⟩
    · exact ⟨_, compiled, rfl, rfl⟩
    · refine ⟨_, compiled, rfl, ?_⟩
      rw [stepOf?]
      simp only [parsed]
  · cases planned
  · cases planned
  · rcases kinds with rfl | rfl | rfl <;> cases planned

/-- The content of an element, given the plan of its children: repeated if a binding says so. -/
def repeatedBy (bindings : List Binding) (plan : Plan) : List Step :=
  match bindings.find? fun binding => binding.kind == .forEach with
  | some binding => (stepOf? binding plan).toList
  | none => plan

/-- The content of an element, with other data if a binding says so. -/
def scopedBy (bindings : List Binding) (content : List Step) : List Step :=
  match bindings.find? fun binding => binding.kind == .scope with
  | some binding => [.scoped binding.expression content]
  | none => content

/-- The steps of an element, under a condition if a binding says so. -/
def guardedBy (bindings : List Binding) (whole : List Step) : List Step :=
  match bindings.findSome? Binding.condition? with
  | some condition => [.guarded condition whole]
  | none => whole

/-- The binding of the content of an element that shows no value. -/
theorem contentBinding?_eq {bindings : List Binding}
    (shown : ∀ binding ∈ bindings, binding.kind.isValue = false) :
    contentBinding? bindings = bindings.find? fun binding => binding.kind == .forEach := by
  unfold contentBinding?
  induction bindings with
  | nil => rfl
  | cons binding rest ih =>
    obtain ⟨first, later⟩ := List.forall_mem_cons.mp shown
    have same : (binding.kind == .forEach || binding.kind == .text || binding.kind == .html) =
        (binding.kind == .forEach) := by
      obtain ⟨kind, source⟩ := binding
      cases kind with
      | text => cases first
      | html => cases first
      | _ => rfl
    rw [List.find?_cons, List.find?_cons, same, ih later]

/-- The content of an element that shows no value is made of the plan of its children. -/
theorem innerSteps_of_shown {inner : List Tree → Checked Plan} {children : List Tree}
    {bindings : List Binding} {content : List Step}
    (shown : ∀ binding ∈ bindings, binding.kind.isValue = false)
    (made : (innerSteps inner bindings children).result = .ok content) :
    ∃ plan, (inner children).result = .ok plan ∧ content = repeatedBy bindings plan := by
  rw [innerSteps, contentBinding?_eq shown] at made
  unfold repeatedBy
  cases found : bindings.find? fun binding => binding.kind == .forEach with
  | none =>
    rw [found] at made
    exact ⟨content, made, rfl⟩
  | some binding =>
    rw [found] at made
    obtain ⟨step, stepped, rfl⟩ := result_map made
    have kind : binding.kind = .forEach := by simpa using List.find?_some found
    have planned : binding.kind.hasPlan = true := by rw [kind]; rfl
    obtain ⟨plan, own, compiled, rfl, same⟩ := stepOf?_of_scopeStep planned stepped
    refine ⟨plan, compiled, ?_⟩
    simp only [same]

/-- Whether the content of an element is left to the walk: no binding holds a plan, and none writes
a value. -/
def leavesContent (bindings : List Binding) : Bool :=
  !(bindings.any fun binding => binding.kind.hasPlan) &&
    !(bindings.any fun binding => binding.kind.isValue)

theorem leavesContent_iff {bindings : List Binding} : leavesContent bindings = true ↔
    ∀ binding ∈ bindings, binding.kind.hasPlan = false ∧ binding.kind.isValue = false := by
  simp only [leavesContent, Bool.and_eq_true, Bool.not_eq_true', List.any_eq_false,
    Bool.not_eq_true, ← forall₂_and]

/-- The content is left to the walk if there is no condition, no scope and no other content. -/
theorem leavesContent_eq (bindings : List Binding) : leavesContent bindings =
    ((bindings.findSome? Binding.condition?).isNone &&
      !(bindings.any fun binding => binding.kind == .scope) &&
        (contentBinding? bindings).isNone) := by
  unfold contentBinding?
  rw [Bool.eq_iff_iff, leavesContent_iff]
  simp only [Bool.and_eq_true, Option.isNone_iff_eq_none, List.findSome?_eq_none_iff,
    Bool.not_eq_true', List.any_eq_false, List.find?_eq_none]
  constructor
  · intro free
    refine ⟨⟨?_, ?_⟩, ?_⟩ <;>
    · rintro ⟨kind, source⟩ member
      have none := free _ member
      cases kind <;> simp_all [Binding.Kind.hasPlan, Binding.Kind.isValue, Binding.condition?]
  · rintro ⟨⟨noCondition, noScope⟩, noContent⟩ ⟨kind, source⟩ member
    have condition := noCondition _ member
    have scope := noScope _ member
    have content := noContent _ member
    cases kind with
    | showIf => cases condition
    | showIfNot => cases condition
    | scope => exact absurd rfl scope
    | forEach => exact absurd rfl content
    | text => exact absurd rfl content
    | html => exact absurd rfl content
    | _ => exact ⟨rfl, rfl⟩

/-- The plan of an element whose bindings are known, behind its start tag. -/
def finishElement (inner : List Tree → Checked Plan) (tag : String) (bindings : List Binding)
    (children : List Tree) (opening : List Step) : Checked ElementPlan :=
  if leavesContent bindings then pure ⟨opening, isVoid tag⟩
  else (if isVoid tag then pure [] else contentSteps inner tag bindings children) >>= fun content =>
    pure ⟨guardedBy bindings (opening ++ content), true⟩

section Elements

variable {inner : List Tree → Checked Plan} {tag source : String} {attributes : List Attribute}
  {children : List Tree} {bindings : List Binding} {element : ElementPlan}

/-- **The plan of an element** is made in three parts: its bindings, its start tag, and the rest. -/
theorem elementPlan_eq : elementPlan inner tag source attributes children =
    Binding.parseContainer source tag >>= fun bindings =>
      lift (allBindingSteps bindings attributes) >>= fun made =>
        finishElement inner tag bindings children (startSteps tag made.1 made.2) := by
  unfold elementPlan finishElement guardedBy
  simp only [leavesContent_eq]
  congr 1
  funext bindings
  congr 1
  funext made
  cases bindings.findSome? Binding.condition? <;> cases isVoid tag <;> rfl

/-- What an element that can be compiled is made of. -/
theorem exists_of_elementPlan
    (made : (elementPlan inner tag source attributes children).result = .ok element) :
    ∃ bindings steps left, (Binding.parseContainer source tag).result = .ok bindings ∧
      allBindingSteps bindings attributes = .ok (steps, left) ∧
      (finishElement inner tag bindings children (startSteps tag steps left)).result =
        .ok element := by
  rw [elementPlan_eq] at made
  obtain ⟨bindings, parsed, made⟩ := result_bind made
  obtain ⟨⟨steps, left⟩, opened, finished⟩ := result_bind made
  exact ⟨bindings, steps, left, parsed, opened, finished⟩

/-- An element is complete if it can have no children or its content is not left to the walk. -/
theorem isComplete_of_elementPlan
    (made : (elementPlan inner tag source attributes children).result = .ok element)
    (parsed : (Binding.parseContainer source tag).result = .ok bindings) :
    element.isComplete = (isVoid tag || !leavesContent bindings) := by
  obtain ⟨found, steps, left, same, _, made⟩ := exists_of_elementPlan made
  rw [parsed] at same
  cases same
  rw [finishElement] at made
  cases leaves : leavesContent bindings with
  | true =>
    rw [leaves] at made
    cases made
    rw [Bool.not_true, Bool.or_false]
  | false =>
    rw [leaves] at made
    obtain ⟨content, _, finished⟩ := result_bind made
    cases finished
    rw [Bool.not_false, Bool.or_true]

/-- **The steps of an element with an inner plan** are made of the plan of its children. -/
theorem elementPlan_of_hasPlan
    (made : (elementPlan inner tag source attributes children).result = .ok element)
    (parsed : (Binding.parseContainer source tag).result = .ok bindings)
    (notVoid : isVoid tag = false) (planned : ∃ binding ∈ bindings, binding.kind.hasPlan = true)
    (shown : ∀ binding ∈ bindings, binding.kind.isValue = false) :
    ∃ plan steps left, (inner children).result = .ok plan ∧
      allBindingSteps bindings attributes = .ok (steps, left) ∧
      element = ⟨guardedBy bindings (startSteps tag steps left ++
        (scopedBy bindings (repeatedBy bindings plan) ++ [.literal (tagEnd tag)])), true⟩ := by
  obtain ⟨found, steps, left, same, opened, made⟩ := exists_of_elementPlan made
  rw [parsed] at same
  cases same
  have stays : leavesContent bindings = false := by
    rw [Bool.eq_false_iff, Ne, leavesContent_iff]
    obtain ⟨binding, member, planned⟩ := planned
    exact fun free => absurd planned (Bool.eq_false_iff.mp (free binding member).1)
  rw [finishElement, stays, notVoid] at made
  obtain ⟨closed, inside, finished⟩ := result_bind made
  obtain ⟨content, filled, whole⟩ := result_bind inside
  cases finished
  cases whole
  obtain ⟨plan, compiled, rfl⟩ := innerSteps_of_shown shown filled
  exact ⟨plan, steps, left, compiled, opened, rfl⟩

end Elements

/-! ### Passes inside of a pass -/

section Inside

variable {index : Block.Index} {nodes : List Tree} {plan : Plan} {state : Compiling}
  {parent : Option Tree} {node : Tree}

/-- A step that has not failed has given its value to what follows. -/
theorem Compiling.exists_of_after {α : Type} {step : Checked α}
    {next : Compiling → α → Compiling × Action} (clean : (state.after step next).1.error = none) :
    ∃ value, step.result = .ok value ∧
      state.after step next = next { state with warnings := state.warnings ++ step.warnings } value
    := by
  obtain ⟨warnings, error | value⟩ := step
  · cases clean
  · exact ⟨value, rfl, rfl⟩

/-- **A block that is met**: its body compiles, and its step is added. -/
theorem emits_of_start (compiled : (compile config index nodes).result = .ok plan)
    (met : Meets config index nodes state parent node) {binding : Binding} {block : Block}
    (opening : directive? config node = some (.opening binding))
    (here : index.find? node.id = some block) (planned : block.binding.kind.hasPlan = true) :
    ∃ inner step, (compile config (index.erase node.id) block.body).result = .ok inner ∧
      stepOf? block.binding inner = some step ∧
      Emits config index nodes state parent node [step] := by
  obtain ⟨clean, emits⟩ := emits_of_meets compiled met
  unfold passVisit at clean emits
  rw [compileVisit_start met.active opening here] at clean emits
  obtain ⟨made, stepped, same⟩ := Compiling.exists_of_after clean
  obtain ⟨inner, step, inside, rfl, formed⟩ := stepOf?_of_scopeStep planned stepped
  rw [compiledInside, if_pos (Or.inl (Block.Index.size_erase_lt here))] at inside
  refine ⟨inner, step, inside, formed, emits [step] ?_⟩
  rw [same]
  exact foldl_push_scopeStep stepped state.draft

/-- **An element with an inner plan that is met**: its children compile, and its steps are added. -/
theorem emits_of_scoping (compiled : (compile config index nodes).result = .ok plan)
    (met : Meets config index nodes state parent node) {tag : String} {bindings : List Binding}
    (scoping : Scoping config node tag bindings) :
    ∃ inner opening, (compile config index node.children).result = .ok inner ∧
      Emits config index nodes state parent node (guardedBy bindings
        (opening ++ (scopedBy bindings (repeatedBy bindings inner) ++ [.literal (tagEnd tag)]))) := by
  obtain ⟨clean, emits⟩ := emits_of_meets compiled met
  obtain ⟨attributes, source, content, bound, parsed⟩ := scoping.element
  unfold passVisit at clean emits
  rw [compileVisit_opening met.active, content] at clean emits
  simp only [visitElement, bound] at clean emits
  obtain ⟨element, made, same⟩ := Compiling.exists_of_after clean
  obtain ⟨inner, steps, left, inside, _, rfl⟩ :=
    elementPlan_of_hasPlan made parsed scoping.notVoid scoping.planned scoping.shown
  rw [compiledInside, if_pos (Or.inr ⟨rfl,
    weightAll_children_lt_of_mem (node_mem_of_asked met.visited)⟩)] at inside
  refine ⟨inner, startSteps tag steps left, inside, emits _ ?_⟩
  rw [same]

/-- What is compiled inside of a node that is met is a part of the forest, and compiles. -/
theorem Inner.part {blocks : List Block} {whole forest content : List Tree}
    {given deeper : Block.Index} (inner : Inner config given node deeper content)
    (distinct : Distinct whole) (part : Part config blocks whole given forest)
    (compiled : (compile config given forest).result = .ok plan)
    (met : Meets config given forest state parent node) :
    Part config blocks whole deeper content ∧
      ∃ plan, (compile config deeper content).result = .ok plan := by
  have member := node_mem_of_asked met.visited
  cases inner with
  | body opening planned here =>
    obtain ⟨block, _, found, _, bound, within⟩ := part.body distinct member opening
    rw [found] at here
    cases here
    obtain ⟨plan, _, inside, _⟩ := emits_of_start compiled met opening found (bound ▸ planned)
    exact ⟨within, plan, inside⟩
  | children scoping =>
    obtain ⟨plan, _, inside, _⟩ := emits_of_scoping compiled met scoping
    exact ⟨part.children member, plan, inside⟩

/-- What is compiled inside of a node is smaller than the forest: it has fewer blocks or nodes. -/
theorem Inner.smaller {deeper : Block.Index} {content : List Tree}
    (inner : Inner config index node deeper content) (member : node ∈ subtreesAll nodes)
    (part : (subtreesAll content).Sublist (subtreesAll nodes)) :
    deeper.size + weightAll content < index.size + weightAll nodes := by
  have lighter : weightAll content ≤ weightAll nodes := by
    rw [weightAll_eq, weightAll_eq]
    exact Nat.mul_le_mul_left 2 part.length_le
  cases inner with
  | body _ _ found => exact Nat.add_lt_add_of_lt_of_le (Block.Index.size_erase_lt found) lighter
  | children _ => exact Nat.add_lt_add_left (weightAll_children_lt_of_mem member) _

/-- What is compiled inside of a pass is compiled inside of the whole. -/
theorem Pass.trans {given deeper : Block.Index} {forest content : List Tree}
    (first : Pass config index nodes given forest)
    (second : Pass config given forest deeper content) :
    Pass config index nodes deeper content := by
  induction second with
  | whole => exact first
  | inner _ met inner ih => exact .inner ih met inner

/-- **Every pass of a forest that compiles** is given a part of the forest, and succeeds. -/
theorem Pass.part {blocks : List Block} (distinct : Distinct nodes)
    (whole : Part config blocks nodes index nodes)
    (compiled : (compile config index nodes).result = .ok plan) {given : Block.Index}
    {forest : List Tree} (pass : Pass config index nodes given forest) :
    Part config blocks nodes given forest ∧
      ∃ plan, (compile config given forest).result = .ok plan := by
  induction pass with
  | whole => exact ⟨whole, plan, compiled⟩
  | inner _ met inner ih =>
    obtain ⟨part, _, succeeds⟩ := ih
    exact inner.part distinct part succeeds met

end Inside

end Template

end DataBind
