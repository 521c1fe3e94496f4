/-
**Plans by recursion over the forest.**

The walk that compiles a forest keeps a draft, joins adjacent markup and passes over the blocks
that it has compiled. All this is the recursion that takes the trees one by one, and a block
together with what stands up to its end marker.

* `assemble`: the steps of a forest by recursion, without joining markup;
* `merge`: the plan of some steps, in which adjacent markup is joined;
* `adds_of_pairs`: the walk adds to its draft the steps of the recursion;
* `compile_eq_assembled`: compiling is assembling and then merging, in a forest whose blocks are
  found;
* `planOf_of_pairs`: so is planning a forest whose blocks are known;
* `planOf_of_nested`: one whose markers match in every sibling list;
* `planOf_eq_assembled`: and any forest whose markers can be matched.
-/

import DataBind.Proofs.Block.Blame
import DataBind.Template.Basic

namespace DataBind

namespace Checked

variable {α β : Type}

theorem pure_eq (value : α) : (pure value : Checked α) = ⟨[], .ok value⟩ := rfl

theorem bind_ok (warnings : List Warning) (value : α) (next : α → Checked β) :
    (⟨warnings, .ok value⟩ : Checked α) >>= next =
      ⟨warnings ++ (next value).warnings, (next value).result⟩ := rfl

theorem map_ok (f : α → β) (warnings : List Warning) (value : α) :
    f <$> (⟨warnings, .ok value⟩ : Checked α) = ⟨warnings, .ok (f value)⟩ := by
  show (⟨warnings ++ [], _⟩ : Checked β) = _
  rw [List.append_nil]
  rfl

theorem map_of_error (f : α → β) (warnings : List Warning) (error : CompileError) :
    f <$> (⟨warnings, .error error⟩ : Checked α) = ⟨warnings, .error error⟩ := rfl

/-- Two sequences of findings, one after the other. -/
def both (first second : Checked (List α)) : Checked (List α) := do
  let found ← first
  let more ← second
  return found ++ more

theorem both_ok (early late : List Warning) (found : List α) (more : Except CompileError (List α)) :
    both ⟨early, .ok found⟩ ⟨late, more⟩ =
      ⟨early ++ late, (found ++ ·) <$> more⟩ := by
  cases more with
  | error error => rfl
  | ok more =>
    show (⟨early ++ (late ++ []), _⟩ : Checked (List α)) = _
    rw [List.append_nil]
    rfl

theorem both_pure (first second : List α) :
    both (pure first) (pure second) = pure (first ++ second) := by
  rw [pure_eq, pure_eq, both_ok]
  rfl

theorem both_assoc (first second third : Checked (List α)) :
    both (both first second) third = both first (both second third) := by
  obtain ⟨early, _ | found⟩ := first
  · rfl
  · obtain ⟨late, _ | more⟩ := second
    · rfl
    · obtain ⟨last, _ | rest⟩ := third <;>
        simp [both_ok, List.append_assoc, Functor.map, Except.map]

/-- Findings after a step are found after all that the step warns about. -/
theorem bind_both (warnings : List Warning) (value : β) (first : β → Checked (List α))
    (second : Checked (List α)) (found : List α) (same : first value = both (pure found) second) :
    (⟨warnings, .ok value⟩ : Checked β) >>= first = both ⟨warnings, .ok found⟩ second := by
  obtain ⟨late, more⟩ := second
  rw [bind_ok, same, pure_eq, both_ok, both_ok, List.nil_append]

/-- A step after another gives a value if both do. -/
theorem result_bind {first : Checked α} {next : α → Checked β} {value : β}
    (passed : (first >>= next).result = .ok value) :
    ∃ found, first.result = .ok found ∧ (next found).result = .ok value := by
  obtain ⟨warnings, _ | found⟩ := first
  · cases passed
  · exact ⟨found, rfl, passed⟩

/-- The same of a first step that is one of two. -/
theorem result_ite {condition : Prop} [Decidable condition] {first other : Checked α}
    {next : α → Checked β} {value : β}
    (passed : (if condition then first >>= next else other >>= next).result = .ok value) :
    ∃ found, (if condition then first else other).result = .ok found ∧
      (next found).result = .ok value := by
  by_cases holds : condition
  · rw [if_pos holds] at passed ⊢
    exact result_bind passed
  · rw [if_neg holds] at passed ⊢
    exact result_bind passed

theorem result_map {f : α → β} {first : Checked α} {value : β}
    (passed : (f <$> first).result = .ok value) :
    ∃ found, first.result = .ok found ∧ f found = value := by
  obtain ⟨warnings, _ | found⟩ := first
  · cases passed
  · exact ⟨found, rfl, Except.ok.inj passed⟩

theorem result_both {first second : Checked (List α)} {values : List α}
    (passed : (both first second).result = .ok values) :
    ∃ found more, first.result = .ok found ∧ second.result = .ok more ∧ values = found ++ more := by
  obtain ⟨found, early, passed⟩ := result_bind passed
  obtain ⟨more, late, passed⟩ := result_bind passed
  exact ⟨found, more, early, late, (Except.ok.inj passed).symm⟩

end Checked

namespace Template

open Markup Markup.Tree Block Checked

variable {config : Config} {index : Block.Index}

/-! ### Steps of a forest -/

/-- The plan of some steps: adjacent markup is joined. -/
def merge (steps : List Step) : Plan :=
  (Draft.empty.extend steps).plan

theorem extend_append (draft : Draft) (first second : List Step) :
    draft.extend (first ++ second) = (draft.extend first).extend second := by
  rw [Draft.extend, Draft.extend, Draft.extend, List.foldl_append]

/-- The steps of a node that is no start marker, given the steps of its children and the plans of
inner forests. -/
def nodeSteps (config : Config) (inner : List Tree → Checked Plan) (below : Checked (List Step)) :
    Tree → Checked (List Step)
  | .node _ (.text text) _ => pure [.escapedText (escape text)]
  | .node _ (.raw tag attributes content) _ => pure [.raw (rawText tag attributes content)]
  | .node _ (.declaration text) _ => pure [.literal (declarationText text)]
  | .node _ (.comment text) _ =>
    match Binding.parseDirective text config with
    | none => pure [.literal (commentText text)]
    | some _ => pure []
  | .node _ (.element tag attributes) children =>
    match attributes.lookup config.bindingAttribute with
    | none =>
      if isVoid tag then pure [.literal (literalTag tag attributes)]
      else both (pure [.literal (literalTag tag attributes)])
        (both below (pure [.literal (tagEnd tag)]))
    | some source => do
      let others := attributes.filter fun (name, _) => name != config.bindingAttribute
      let element ← elementPlan inner tag source others children
      if element.isComplete then return element.steps
      else both (pure element.steps) (both below (pure [.literal (tagEnd tag)]))

/-- The steps of a forest. -/
def assemble (config : Config) (nodes : List Tree) : Checked (List Step) :=
  let inner := fun body =>
    if weightAll body < weightAll nodes then merge <$> assemble config body else pure []
  match nodes with
  | [] => pure []
  | first :: rest =>
    have := weightAll_children_lt first rest
    have := weightAll_rest_lt first rest
    match directive? config first with
    | some (.opening binding) =>
      match split : splitBlock? config 0 rest with
      | none => assemble config rest
      | some (body, finish, after) =>
        have := Nat.lt_trans (weightAll_lt_of_splitBlock? split).2 (weightAll_rest_lt first rest)
        both (Option.toList <$> scopeStep inner binding body) (assemble config after)
    | _ => both (nodeSteps config inner (assemble config first.children) first)
        (assemble config rest)
termination_by weightAll nodes

/-- The plan of a forest by recursion. -/
def assembled (config : Config) (nodes : List Tree) : Checked Plan :=
  merge <$> assemble config nodes

/-! ### The steps of attributes -/

/-- The steps of the first binding of an element stand before those of the others. -/
theorem allBindingSteps_cons {binding : Binding} {rest : List Binding}
    {attributes left : List Attribute} {steps : List Step}
    (made : allBindingSteps (binding :: rest) attributes = .ok (steps, left)) :
    ∃ own remaining more, bindingSteps binding attributes = .ok (own, remaining) ∧
      allBindingSteps rest remaining = .ok (more, left) ∧ steps = own ++ more := by
  rw [allBindingSteps] at made
  obtain ⟨⟨own, remaining⟩, first, made⟩ := Text.exists_of_bind_eq_ok made
  obtain ⟨⟨more, last⟩, others, made⟩ := Text.exists_of_bind_eq_ok made
  cases made
  exact ⟨own, remaining, more, first, others, rfl⟩

/-- **What a binding adds to a start tag**: a class or style attribute in place of the literal one,
attributes of its own, or nothing. -/
theorem bindingSteps_cases {kind : Binding.Kind} {source : String}
    {attributes left : List Attribute} {steps : List Step}
    (made : bindingSteps ⟨kind, source⟩ attributes = .ok (steps, left)) :
    (∃ step, kind = .classes ∧ steps = [step] ∧
        classStep source ((takeAttribute "class" attributes).1.getD "") = .ok step ∧
        left = (takeAttribute "class" attributes).2) ∨
      (∃ step, kind = .styles ∧ steps = [step] ∧
        styleStep source ((takeAttribute "style" attributes).1.getD "") = .ok step ∧
        left = (takeAttribute "style" attributes).2) ∨
      (∃ entries, kind = .attributes ∧ Binding.entriesOf source = .ok entries ∧
        (steps, left) = attributeSteps entries attributes) ∨
      (kind ≠ .classes ∧ kind ≠ .styles ∧ kind ≠ .attributes) ∧ steps = [] ∧
        left = attributes := by
  have nothing : (kind ≠ .classes ∧ kind ≠ .styles ∧ kind ≠ .attributes) →
      (Except.ok ([], attributes) : Except CompileError _) = .ok (steps, left) →
      (kind ≠ .classes ∧ kind ≠ .styles ∧ kind ≠ .attributes) ∧ steps = [] ∧
        left = attributes := by
    intro other same
    cases same
    exact ⟨other, rfl, rfl⟩
  cases kind with
  | classes =>
    obtain ⟨step, stepped, made⟩ := Text.exists_of_bind_eq_ok made
    cases made
    exact Or.inl ⟨step, rfl, rfl, stepped, rfl⟩
  | styles =>
    obtain ⟨step, stepped, made⟩ := Text.exists_of_bind_eq_ok made
    cases made
    exact Or.inr (Or.inl ⟨step, rfl, rfl, stepped, rfl⟩)
  | attributes =>
    obtain ⟨entries, parsed, made⟩ := Text.exists_of_bind_eq_ok made
    exact Or.inr (Or.inr (Or.inl ⟨entries, rfl, parsed, (Except.ok.inj made).symm⟩))
  | showIf => exact Or.inr (Or.inr (Or.inr (nothing (by decide) made)))
  | showIfNot => exact Or.inr (Or.inr (Or.inr (nothing (by decide) made)))
  | forEach => exact Or.inr (Or.inr (Or.inr (nothing (by decide) made)))
  | scope => exact Or.inr (Or.inr (Or.inr (nothing (by decide) made)))
  | text => exact Or.inr (Or.inr (Or.inr (nothing (by decide) made)))
  | html => exact Or.inr (Or.inr (Or.inr (nothing (by decide) made)))

/-! ### Inner plans -/

/-- **What the step of a binding is**: the plan of the body under a condition, with other data or
repeated, the value of the binding, or nothing if it only adds attributes. -/
theorem scopeStep_cases {inner : List Tree → Checked Plan} {kind : Binding.Kind} {source : String}
    {body : List Tree} {step : Option Step}
    (made : (scopeStep inner ⟨kind, source⟩ body).result = .ok step) :
    (∃ plan, (inner body).result = .ok plan ∧
        ((kind = .showIf ∨ kind = .showIfNot) ∧
            step = some (.guarded (Binding.mk kind source).expression plan) ∨
          kind = .scope ∧ step = some (.scoped (Binding.mk kind source).expression plan) ∨
          ∃ iteration, kind = .forEach ∧ Binding.parseIteration source = .ok iteration ∧
            step = some (.repeated (Expression.parse iteration.items) iteration.alias? plan))) ∨
      kind = .text ∧ step = some (.text (Binding.mk kind source).expression) ∨
      kind = .html ∧ step = some (.html (Binding.mk kind source).expression) ∨
      (kind = .attributes ∨ kind = .classes ∨ kind = .styles) ∧ step = none := by
  unfold scopeStep at made
  cases kind with
  | showIf =>
    obtain ⟨plan, planned, made⟩ := result_bind made
    cases made
    exact Or.inl ⟨plan, planned, Or.inl ⟨Or.inl rfl, rfl⟩⟩
  | showIfNot =>
    obtain ⟨plan, planned, made⟩ := result_bind made
    cases made
    exact Or.inl ⟨plan, planned, Or.inl ⟨Or.inr rfl, rfl⟩⟩
  | scope =>
    obtain ⟨plan, planned, made⟩ := result_bind made
    cases made
    exact Or.inl ⟨plan, planned, Or.inr (Or.inl ⟨rfl, rfl⟩)⟩
  | forEach =>
    simp only at made
    split at made
    · cases made
    · rename_i iteration parsed
      obtain ⟨plan, planned, made⟩ := result_bind made
      cases made
      exact Or.inl ⟨plan, planned, Or.inr (Or.inr ⟨iteration, rfl, parsed, rfl⟩)⟩
  | text =>
    cases made
    exact Or.inr (Or.inl ⟨rfl, rfl⟩)
  | html =>
    cases made
    exact Or.inr (Or.inr (Or.inl ⟨rfl, rfl⟩))
  | attributes =>
    cases made
    exact Or.inr (Or.inr (Or.inr ⟨Or.inl rfl, rfl⟩))
  | classes =>
    cases made
    exact Or.inr (Or.inr (Or.inr ⟨Or.inr (Or.inl rfl), rfl⟩))
  | styles =>
    cases made
    exact Or.inr (Or.inr (Or.inr ⟨Or.inr (Or.inr rfl), rfl⟩))

/-- The step of a binding depends on its body by the body's plan only. -/
theorem scopeStep_congr {inner other : List Tree → Checked Plan} {body others : List Tree}
    (same : inner body = other others) (binding : Binding) :
    scopeStep inner binding body = scopeStep other binding others := by
  unfold scopeStep
  rw [same]

theorem elementPlan_congr {inner other : List Tree → Checked Plan} {children others : List Tree}
    (same : inner children = other others) (tag source : String) (attributes : List Attribute) :
    elementPlan inner tag source attributes children =
      elementPlan other tag source attributes others := by
  have content : ∀ bindings, innerSteps inner bindings children =
      innerSteps other bindings others := by
    intro bindings
    unfold innerSteps
    simp only [same, scopeStep_congr same]
  unfold elementPlan contentSteps
  simp only [content]

/-- The steps of a node depend on its content and on the plan of its children only. -/
theorem nodeSteps_congr {inner other : List Tree → Checked Plan} {first second : Tree}
    (content : first.content = second.content)
    (same : inner first.children = other second.children) (below : Checked (List Step)) :
    nodeSteps config inner below first = nodeSteps config other below second := by
  obtain ⟨id, _, children⟩ := first
  obtain ⟨place, _, others⟩ := second
  cases content
  rename_i content
  cases content with
  | element tag attributes =>
    simp only [Tree.children] at same
    simp only [nodeSteps, elementPlan_congr same]
  | text _ => rfl
  | comment _ => rfl
  | raw _ _ _ => rfl
  | declaration _ => rfl

/-! ### The cases of the recursion -/

section Words

variable {node : Tree} (binding : Binding)

theorem not_opening_of_plain (plain : directive? config node = none) :
    directive? config node ≠ some (.opening binding) := by
  rw [plain]
  simp

theorem not_opening_of_closing (closing : directive? config node = some .closing) :
    directive? config node ≠ some (.opening binding) := by
  rw [closing]
  simp

end Words

@[simp] theorem assemble_nil : assemble config [] = pure [] := by
  rw [assemble]

/-- A node that is no start marker stands for itself. -/
theorem assemble_cons {first : Tree} (word : ∀ binding,
    directive? config first ≠ some (.opening binding)) (rest : List Tree) :
    assemble config (first :: rest) =
      both (nodeSteps config (assembled config) (assemble config first.children) first)
        (assemble config rest) := by
  rw [assemble]
  split
  · rename_i binding opening
    exact absurd opening (word binding)
  · refine congrArg (both · _) (nodeSteps_congr rfl ?_ _)
    exact if_pos (weightAll_children_lt first rest)

/-- A start marker without an end marker stands for nothing. -/
theorem assemble_unclosed {start : Tree} {binding : Binding} {rest : List Tree}
    (opening : directive? config start = some (.opening binding))
    (unclosed : splitBlock? config 0 rest = none) :
    assemble config (start :: rest) = assemble config rest := by
  rw [assemble]
  simp only [opening]
  split
  · rfl
  · rename_i _ _ _ found
    rw [unclosed] at found
    cases found

/-- A start marker stands for its block. -/
theorem assemble_block {start finish : Tree} {binding : Binding} {body after : List Tree}
    (opening : directive? config start = some (.opening binding))
    (balanced : Balanced config body) (closing : directive? config finish = some .closing) :
    assemble config (start :: (body ++ finish :: after)) =
      both (Option.toList <$> scopeStep (assembled config) binding body)
        (assemble config after) := by
  have split := splitBlock?_of_balanced balanced closing after
  rw [assemble]
  simp only [opening]
  have lighter : weightAll body < weightAll (start :: (body ++ finish :: after)) :=
    Nat.lt_trans (weightAll_lt_of_splitBlock? split).1 (weightAll_rest_lt start _)
  split
  · rename_i missing
    rw [split] at missing
    cases missing
  · rename_i _ _ _ found
    rw [split] at found
    cases found
    refine congrArg (fun step => both (Option.toList <$> step) _) (scopeStep_congr ?_ binding)
    exact if_pos lighter

/-- **Induction over what is assembled**: nothing, a node before more, a start marker without an end
marker, or a block before more. -/
@[elab_as_elim] theorem assemble_induction {motive : List Tree → List Step → Prop}
    (nil : motive [] [])
    (node : ∀ first rest own more,
      (∀ binding, directive? config first ≠ some (.opening binding)) →
      (nodeSteps config (assembled config) (assemble config first.children) first).result =
        .ok own →
      (∀ steps, (assemble config first.children).result = .ok steps →
        motive first.children steps) →
      motive rest more → motive (first :: rest) (own ++ more))
    (unclosed : ∀ start binding rest steps,
      directive? config start = some (.opening binding) → splitBlock? config 0 rest = none →
      motive rest steps → motive (start :: rest) steps)
    (block : ∀ start finish binding body after step more,
      directive? config start = some (.opening binding) → Balanced config body →
      directive? config finish = some .closing →
      (scopeStep (assembled config) binding body).result = .ok step →
      (∀ steps, (assemble config body).result = .ok steps → motive body steps) →
      motive after more → motive (start :: (body ++ finish :: after)) (step.toList ++ more))
    {nodes : List Tree} {steps : List Step} (made : (assemble config nodes).result = .ok steps) :
    motive nodes steps := by
  induction weight : weightAll nodes using Nat.strongRecOn generalizing nodes steps
  rename_i bound ih
  cases nodes with
  | nil =>
    rw [assemble_nil] at made
    cases made
    exact nil
  | cons first rest =>
    rw [weightAll, weight_eq] at weight
    have plain : (∀ binding, directive? config first ≠ some (.opening binding)) →
        motive (first :: rest) steps := by
      intro word
      rw [assemble_cons word] at made
      obtain ⟨own, more, ownMade, moreMade, rfl⟩ := result_both made
      exact node first rest own more word ownMade
        (fun steps below => ih (weightAll first.children) (by omega) below rfl)
        (ih (weightAll rest) (by omega) moreMade rfl)
    cases said : directive? config first with
    | none => exact plain fun binding => not_opening_of_plain binding said
    | some word =>
      cases word with
      | closing => exact plain fun binding => not_opening_of_closing binding said
      | opening binding =>
        cases split : splitBlock? config 0 rest with
        | none =>
          rw [assemble_unclosed said split] at made
          exact unclosed first binding rest steps said split
            (ih (weightAll rest) (by omega) made rfl)
        | some found =>
          obtain ⟨body, finish, after⟩ := found
          obtain ⟨joined, closing, balanced⟩ := splitBlock?_eq_some split
          rw [joined, weightAll_append, weightAll, weight_eq] at weight
          rw [joined, assemble_block said balanced closing] at made
          obtain ⟨own, more, ownMade, moreMade, rfl⟩ := result_both made
          obtain ⟨step, stepped, rfl⟩ := result_map ownMade
          rw [joined]
          exact block first finish binding body after step more said balanced closing stepped
            (fun steps inside => ih (weightAll body) (by omega) inside rfl)
            (ih (weightAll after) (by omega) moreMade rfl)

/-! ### The walk -/

/-- A traversal has added to its draft what is found, or has stopped with the error found. -/
def Adds (state : Compiling) (found : Checked (List Step)) (traversed : Compiling × Option Tree) :
    Prop :=
  match found with
  | ⟨warnings, .ok steps⟩ =>
    traversed = ({ state with
      draft := state.draft.extend steps
      warnings := state.warnings ++ warnings }, none)
  | ⟨warnings, .error error⟩ =>
    ∃ final node, traversed = (final, some node) ∧ final.error = some error ∧
      final.warnings = state.warnings ++ warnings

theorem Adds.nothing (state : Compiling) : Adds state (pure []) (state, none) := by
  show (state, none) = _
  rw [List.append_nil]
  rfl

/-- What is added before a traversal that goes on. -/
theorem Adds.prepend {state : Compiling} {later : Checked (List Step)} (warnings : List Warning)
    (steps : List Step) {traversed : Compiling × Option Tree}
    (adds : Adds { state with
      draft := state.draft.extend steps
      warnings := state.warnings ++ warnings } later traversed) :
    Adds state (both ⟨warnings, .ok steps⟩ later) traversed := by
  obtain ⟨late, _ | more⟩ := later
  · obtain ⟨final, node, rfl, error, noted⟩ := adds
    rw [both_ok]
    exact ⟨final, node, rfl, error, by rw [noted, List.append_assoc]⟩
  · rw [both_ok]
    refine adds.trans ?_
    simp only [extend_append, List.append_assoc]

theorem Adds.prepend_pure {state : Compiling} {later : Checked (List Step)} (steps : List Step)
    {traversed : Compiling × Option Tree}
    (adds : Adds { state with draft := state.draft.extend steps } later traversed) :
    Adds state (both (pure steps) later) traversed := by
  refine Adds.prepend [] steps ?_
  rw [List.append_nil]
  exact adds

/-- What two traversals add one after the other. -/
theorem Adds.andThen {state : Compiling} {first second : Checked (List Step)}
    {traversed : Compiling × Option Tree} {next : Compiling → Compiling × Option Tree}
    (adds : Adds state first traversed)
    (goOn : ∀ middle, middle.skipUntil = state.skipUntil → Adds middle second (next middle)) :
    Adds state (both first second) (andThen traversed next) := by
  obtain ⟨early, _ | steps⟩ := first
  · obtain ⟨final, node, rfl, error, noted⟩ := adds
    exact ⟨final, node, rfl, error, noted⟩
  · cases adds
    rw [andThen_none]
    exact Adds.prepend early steps (goOn _ rfl)

section Visits

variable {inner : Block.Index → List Tree → Checked Plan} {parent : Option Tree} {state : Compiling}

theorem compileVisit_opening (active : state.skipUntil = none) (node : Tree) :
    compileVisit config index inner state ⟨node, parent, true⟩ =
      match node.content with
      | .text text => ({ state with draft := state.draft.push (.escapedText (escape text)) }, .skip)
      | .comment text => visitComment config index inner state node.id text
      | .raw tag attributes content =>
        ({ state with draft := state.draft.push (.raw (rawText tag attributes content)) }, .skip)
      | .declaration text => (state.literal (declarationText text), .skip)
      | .element tag attributes =>
        visitElement config (inner index) state tag attributes node.children := by
  rw [compileVisit, active]
  rfl

theorem compileVisit_closing (active : state.skipUntil = none) (id : NodeId) (tag : String)
    (attributes : List Attribute) (children : List Tree) :
    compileVisit config index inner state
        ⟨.node id (.element tag attributes) children, parent, false⟩ =
      (state.literal (tagEnd tag), .descend) := by
  rw [compileVisit, active]
  rfl

/-- An element that is entered: its children, its end tag and what follows it. -/
theorem adds_of_descend {id : NodeId} {tag : String} {attributes : List Attribute}
    {children rest : List Tree} {below later : Checked (List Step)} {opened : Compiling}
    (active : opened.skipUntil = none)
    (entered : compileVisit config index inner state
      ⟨.node id (.element tag attributes) children, parent, true⟩ = (opened, .descend))
    (under : ∀ middle, middle.skipUntil = none → Adds middle below
      (traverseAll (compileVisit config index inner)
        (some (.node id (.element tag attributes) children)) middle children))
    (after : ∀ middle, middle.skipUntil = none → Adds middle later
      (traverseAll (compileVisit config index inner) parent middle rest)) :
    Adds opened (both below (both (pure [.literal (tagEnd tag)]) later))
      (traverseAll (compileVisit config index inner) parent state
        (.node id (.element tag attributes) children :: rest)) := by
  rw [traverseAll_of_descend entered]
  refine (under opened active).andThen fun middle same => ?_
  rw [active] at same
  simp only [compileVisit_closing same]
  exact Adds.prepend_pure _ (after _ same)

/-- An element adds its steps, and then what follows it is added. -/
theorem adds_of_element {id : NodeId} {tag : String} {attributes : List Attribute}
    {children rest : List Tree} {compiled : List Tree → Checked Plan}
    {below later : Checked (List Step)} (active : state.skipUntil = none)
    (same : inner index children = compiled children)
    (under : ∀ middle, middle.skipUntil = none → Adds middle below
      (traverseAll (compileVisit config index inner)
        (some (.node id (.element tag attributes) children)) middle children))
    (after : ∀ middle, middle.skipUntil = none → Adds middle later
      (traverseAll (compileVisit config index inner) parent middle rest)) :
    Adds state
      (both (nodeSteps config compiled below (.node id (.element tag attributes) children)) later)
      (traverseAll (compileVisit config index inner) parent state
        (.node id (.element tag attributes) children :: rest)) := by
  have opening : compileVisit config index inner state
      ⟨.node id (.element tag attributes) children, parent, true⟩ =
        visitElement config (inner index) state tag attributes children :=
    compileVisit_opening active _
  rw [visitElement] at opening
  rw [nodeSteps]
  cases found : attributes.lookup config.bindingAttribute with
  | none =>
    rw [found] at opening
    simp only at opening ⊢
    by_cases void : isVoid tag = true
    · rw [if_pos void] at opening ⊢
      rw [traverseAll_of_skip opening]
      exact Adds.prepend_pure _ (after _ active)
    · rw [if_neg void] at opening ⊢
      rw [both_assoc, both_assoc]
      exact Adds.prepend_pure _ (adds_of_descend active opening under after)
  | some source =>
    rw [found] at opening
    simp only at opening ⊢
    rw [elementPlan_congr same] at opening
    cases result : elementPlan compiled tag source
        (attributes.filter fun (name, _) => name != config.bindingAttribute) children with
    | mk warnings outcome =>
      rw [result] at opening
      cases outcome with
      | error error =>
        rw [traverseAll_of_stop opening]
        exact ⟨_, _, rfl, rfl, rfl⟩
      | ok element =>
        simp only [Compiling.after] at opening
        by_cases complete : element.isComplete = true
        · rw [if_pos complete] at opening
          rw [bind_ok, if_pos complete, pure_eq, List.append_nil, traverseAll_of_skip opening]
          exact Adds.prepend _ _ (after _ active)
        · rw [if_neg complete] at opening
          rw [bind_both warnings element _ _ element.steps (if_neg complete), both_assoc,
            both_assoc]
          exact Adds.prepend _ _ (adds_of_descend active opening under after)

/-- **A node that is no start marker** adds its steps, and then what follows it is added. -/
theorem adds_of_node {node : Tree} {rest : List Tree} {compiled : List Tree → Checked Plan}
    {below later : Checked (List Step)} (active : state.skipUntil = none)
    (word : ∀ binding, directive? config node ≠ some (.opening binding))
    (same : inner index node.children = compiled node.children)
    (under : ∀ middle, middle.skipUntil = none → Adds middle below
      (traverseAll (compileVisit config index inner) (some node) middle node.children))
    (after : ∀ middle, middle.skipUntil = none → Adds middle later
      (traverseAll (compileVisit config index inner) parent middle rest)) :
    Adds state (both (nodeSteps config compiled below node) later)
      (traverseAll (compileVisit config index inner) parent state (node :: rest)) := by
  have opening : compileVisit config index inner state ⟨node, parent, true⟩ = _ :=
    compileVisit_opening active node
  obtain ⟨id, content, children⟩ := node
  cases content with
  | text text =>
    rw [traverseAll_of_skip opening]
    exact Adds.prepend_pure _ (after _ active)
  | raw tag attributes content =>
    rw [traverseAll_of_skip opening]
    exact Adds.prepend_pure _ (after _ active)
  | declaration text =>
    rw [traverseAll_of_skip opening]
    exact Adds.prepend_pure _ (after _ active)
  | comment text =>
    have said : ∀ binding, Binding.parseDirective text config ≠ some (.opening binding) := word
    simp only [Tree.content, visitComment] at opening
    rw [nodeSteps]
    cases parsed : Binding.parseDirective text config with
    | none =>
      rw [parsed] at opening
      rw [traverseAll_of_skip opening]
      exact Adds.prepend_pure _ (after _ active)
    | some directive =>
      cases directive with
      | opening binding => exact absurd parsed (said binding)
      | closing =>
        rw [parsed] at opening
        rw [traverseAll_of_skip opening]
        exact Adds.prepend_pure _ (after _ active)
  | element tag attributes => exact adds_of_element active same under after

end Visits

/-! ### Blocks -/

theorem find?_erase_of_ne {start other : NodeId} (different : start ≠ other) (index : Block.Index) :
    (index.erase other).find? start = index.find? start := by
  unfold Block.Index.find? Block.Index.erase
  rw [List.find?_filter]
  congr 1
  funext block
  by_cases same : block.start = start
  · simp [same, different]
  · simp [same]

/-- The step of a block is no markup to be joined. -/
theorem foldl_push_scopeStep {inner : List Tree → Checked Plan} {binding : Binding}
    {body : List Tree} {step : Option Step}
    (made : (scopeStep inner binding body).result = .ok step) (draft : Draft) :
    step.toList.foldl Draft.push draft = draft.extend step.toList := by
  rcases scopeStep_cases made with ⟨plan, _, bodied⟩ | ⟨_, rfl⟩ | ⟨_, rfl⟩ | ⟨_, rfl⟩
  · rcases bodied with ⟨_, rfl⟩ | ⟨_, rfl⟩ | ⟨iteration, _, _, rfl⟩
    · rfl
    · rfl
    · rfl
  · rfl
  · rfl
  · rfl

/-- The step of a block is added at its start marker. -/
theorem compileVisit_start {inner : Block.Index → List Tree → Checked Plan} {state : Compiling}
    (active : state.skipUntil = none) {node : Tree} {binding : Binding} {block : Block}
    {parent : Option Tree} (opening : directive? config node = some (.opening binding))
    (here : index.find? node.id = some block) :
    compileVisit config index inner state ⟨node, parent, true⟩ =
      state.after (scopeStep (inner (index.erase node.id)) block.binding block.body)
        fun state step =>
          ({ state with
              draft := step.toList.foldl Draft.push state.draft
              skipUntil := some block.finish }, .skip) := by
  obtain ⟨id, content, children⟩ := node
  rw [compileVisit_opening active]
  cases content with
  | comment text =>
    have said : Binding.parseDirective text config = some (.opening binding) := opening
    have here : index.find? id = some block := here
    show visitComment config index inner state id text = _
    rw [visitComment, said]
    simp only [here]
    rfl
  | element _ _ => cases opening
  | text _ => cases opening
  | raw _ _ _ => cases opening
  | declaration _ => cases opening

/-- A block that has been compiled is passed over. -/
theorem traverseAll_skipping {inner : Block.Index → List Tree → Checked Plan}
    {parent : Option Tree} {state : Compiling} {body rest : List Tree} {finish : Tree}
    (skipping : state.skipUntil = some finish.id) (others : ∀ tree ∈ body, tree.id ≠ finish.id) :
    traverseAll (compileVisit config index inner) parent state (body ++ finish :: rest) =
      traverseAll (compileVisit config index inner) parent { state with skipUntil := none }
        rest := by
  induction body with
  | nil =>
    refine traverseAll_of_skip ?_ rest
    rw [compileVisit, skipping]
    simp
  | cons tree body ih =>
    obtain ⟨first, later⟩ := List.forall_mem_cons.mp others
    rw [List.cons_append, ← ih later]
    refine traverseAll_of_skip ?_ _
    rw [compileVisit, skipping]
    simp [first]

/-- **A block** adds its step, and then what follows it is added. -/
theorem adds_of_block {inner : Block.Index → List Tree → Checked Plan}
    {compiled : List Tree → Checked Plan} {parent : Option Tree} {state : Compiling}
    {start finish : Tree} {binding : Binding} {body rest : List Tree}
    {later : Checked (List Step)} (active : state.skipUntil = none)
    (opening : directive? config start = some (.opening binding))
    (here : index.find? start.id = some ⟨binding, start.id, finish.id, body⟩)
    (same : inner (index.erase start.id) body = compiled body)
    (others : ∀ tree ∈ body, tree.id ≠ finish.id)
    (after : ∀ middle, middle.skipUntil = none → Adds middle later
      (traverseAll (compileVisit config index inner) parent middle rest)) :
    Adds state (both (Option.toList <$> scopeStep compiled binding body) later)
      (traverseAll (compileVisit config index inner) parent state
        (start :: (body ++ finish :: rest))) := by
  have entered : compileVisit config index inner state ⟨start, parent, true⟩ =
      state.after (scopeStep compiled binding body) fun state step =>
        ({ state with
            draft := step.toList.foldl Draft.push state.draft
            skipUntil := some finish.id }, .skip) := by
    rw [compileVisit_start active opening here, scopeStep_congr same]
  cases result : scopeStep compiled binding body with
  | mk warnings outcome =>
    rw [result] at entered
    cases outcome with
    | error error =>
      rw [traverseAll_of_stop entered]
      exact ⟨_, _, rfl, rfl, rfl⟩
    | ok step =>
      simp only [Compiling.after] at entered
      rw [traverseAll_of_skip entered, traverseAll_skipping rfl others, map_ok]
      refine Adds.prepend _ _ ?_
      rw [foldl_push_scopeStep (congrArg Checked.result result)]
      have goOn := after { state with
        draft := state.draft.extend step.toList
        warnings := state.warnings ++ warnings } active
      rw [← active]
      exact goOn

/-- The plans of inner forests, as compiling a forest takes them. -/
def compiledInside (config : Config) (index : Block.Index) (nodes : List Tree)
    (fewer : Block.Index) (body : List Tree) : Checked Plan :=
  if Block.Index.size fewer < index.size ∨
      Block.Index.size fewer = index.size ∧ weightAll body < weightAll nodes then
    compile config fewer body
  else pure []

theorem compile_eq (config : Config) (index : Block.Index) (nodes : List Tree) :
    compile config index nodes =
      (traverseAll (compileVisit config index (compiledInside config index nodes)) none .start
        nodes).1.finish := by
  rw [compile, walk_eq_traverseAll]
  rfl

/-- **The walk adds to its draft the steps of the recursion**, in every part of a forest whose
inner forests compile to what is assembled. -/
theorem adds_of_pairs {loose : Bool} {whole nodes dangling : List Tree} {blocks : List Block}
    (pairs : Pairs config loose nodes blocks dangling) (distinct : Distinct nodes)
    (part : weightAll nodes ≤ weightAll whole)
    (found : ∀ block ∈ blocks, index.find? block.start = some block)
    (lighter : ∀ (fewer : Block.Index) (loose : Bool) (body deeper : List Tree)
      (inner : List Block), weightAll body < weightAll whole → Distinct body →
      Pairs config loose body inner deeper →
      (∀ block ∈ inner, fewer.find? block.start = some block) →
      compile config fewer body = assembled config body)
    (parent : Option Tree) (state : Compiling) (active : state.skipUntil = none) :
    Adds state (assemble config nodes)
      (traverseAll (compileVisit config index (compiledInside config index whole)) parent state
        nodes) := by
  induction pairs generalizing parent state with
  | nil =>
    rw [assemble_nil, traverseAll_nil]
    exact Adds.nothing state
  | @other loose node rest below blocks deeper dangling plain children _ under later =>
    rw [weightAll, weight_eq] at part
    obtain ⟨_, _, distinctBelow, distinctLater, _⟩ := distinct.cons
    have word := fun binding => not_opening_of_plain binding plain
    have inside : ∀ block ∈ below, index.find? block.start = some block := fun block member =>
      found block (List.mem_append_left _ member)
    have same : compiledInside config index whole index node.children =
        assembled config node.children := by
      rw [compiledInside, if_pos (Or.inr ⟨rfl, by omega⟩)]
      exact lighter index loose _ deeper below (by omega) distinctBelow children inside
    rw [assemble_cons word]
    refine adds_of_node active word same (fun middle free => ?_) fun middle free => ?_
    · exact under distinctBelow (by omega) inside _ middle free
    · exact later distinctLater (by omega)
        (fun block member => found block (List.mem_append_right _ member)) _ middle free
  | @dangling node rest blocks dangling closing leaf _ later =>
    rw [weightAll, weight_eq] at part
    have word := fun binding => not_opening_of_closing binding closing
    have nothing : assembled config node.children = pure [] := by
      rw [leaf, assembled, assemble_nil]
      rfl
    have same : compiledInside config index whole index node.children =
        assembled config node.children := by
      rw [compiledInside, if_pos (Or.inr ⟨rfl, by omega⟩), nothing, leaf, compile_nil]
    rw [assemble_cons word]
    refine adds_of_node active word same (fun middle free => ?_) fun middle free => ?_
    · rw [leaf, assemble_nil, traverseAll_nil]
      exact Adds.nothing middle
    · exact later distinct.cons.2.2.2.1 (by omega) found _ middle free
  | @block loose binding start finish body rest inner blocks dangling opening leaf closing last
      bodyPairs _ _ later =>
    obtain ⟨_, distinctBody, distinctRest, ⟨notInBody, alone⟩, _⟩ :=
      distinct_block distinct leaf last
    rw [weightAll, weightAll_append, weightAll, weight_eq] at part
    -- the block is found under its start marker, and the blocks inside of it without it
    have here : index.find? start.id = some ⟨binding, start.id, finish.id, body⟩ :=
      found _ (List.mem_append_right _ List.mem_cons_self)
    have inside : ∀ block ∈ inner, (index.erase start.id).find? block.start = some block := by
      intro block member
      have other : block.start ≠ start.id := fun same =>
        notInBody (same ▸ bodyPairs.span_subset member (start_mem_span block))
      rw [find?_erase_of_ne other]
      exact found block (List.mem_append_left _ member)
    have same : compiledInside config index whole (index.erase start.id) body =
        assembled config body := by
      rw [compiledInside, if_pos (Or.inl (Block.Index.size_erase_lt here))]
      exact lighter _ false body [] inner (by omega) distinctBody bodyPairs inside
    have others : ∀ tree ∈ body, tree.id ≠ finish.id := fun tree member equal =>
      alone (equal ▸ id_mem_idsAll (mem_subtreesAll_of_mem member))
    rw [assemble_block opening (bodyPairs.balanced rfl) closing]
    exact adds_of_block active opening here same others fun middle free =>
      later distinctRest (by omega) (fun block member =>
        found block (List.mem_append_right _ (List.mem_cons_of_mem _ member))) parent middle free

/-- **Compiling is assembling and then merging**, in a forest whose blocks are found. -/
theorem compile_eq_assembled {nodes : List Tree} (loose : Bool) (blocks : List Block)
    (dangling : List Tree) (index : Block.Index) (distinct : Distinct nodes)
    (pairs : Pairs config loose nodes blocks dangling)
    (found : ∀ block ∈ blocks, index.find? block.start = some block) :
    compile config index nodes = assembled config nodes := by
  induction weight : weightAll nodes using Nat.strongRecOn
    generalizing nodes loose blocks dangling index
  rename_i bound ih
  have walked := adds_of_pairs pairs distinct (Nat.le_refl _) found
    (fun fewer loose body deeper inner lighter distinct pairs found =>
      ih (weightAll body) (weight ▸ lighter) loose inner deeper fewer distinct pairs found rfl)
    none .start rfl
  rw [compile_eq, assembled]
  cases result : assemble config nodes with
  | mk warnings outcome =>
    rw [result] at walked
    cases outcome with
    | error error =>
      obtain ⟨final, node, run, failed, noted⟩ := walked
      rw [run, Compiling.finish, failed, noted, map_of_error]
      rfl
    | ok steps =>
      rw [map_ok, walked]
      rfl

/-- Every block is found in the index of a forest under its start marker. -/
theorem find?_of_pairs {loose : Bool} {nodes dangling : List Tree} {blocks : List Block}
    (pairs : Pairs config loose nodes blocks dangling) (distinct : Distinct nodes) {block : Block}
    (member : block ∈ blocks) :
    (⟨blocks.reverse⟩ : Block.Index).find? block.start = some block := by
  have once : (blocks.reverse.map Block.start).Nodup := by
    rw [List.map_reverse, List.nodup_reverse]
    exact List.pairwise_map.mpr ((pairs.markers_ne distinct).imp fun apart => apart.1)
  unfold Block.Index.find?
  cases result : blocks.reverse.find? fun other => other.start == block.start with
  | none =>
    rw [List.find?_eq_none] at result
    exact absurd (beq_self_eq_true block.start) (result block (List.mem_reverse.mpr member))
  | some other =>
    have same : other.start = block.start := by simpa using List.find?_some result
    rw [List.inj_on_of_nodup_map once (List.mem_of_find?_eq_some result)
      (List.mem_reverse.mpr member) same]

/-- **The plan of a forest whose blocks are known** is the one that recursion gives, after a warning
for every end marker that ends none of them. -/
theorem planOf_of_pairs {loose : Bool} {nodes dangling : List Tree} {blocks : List Block}
    (distinct : Distinct nodes) (pairs : Pairs config loose nodes blocks dangling) :
    planOf config nodes =
      ⟨dangling.map (fun marker => .danglingEnd (markerText marker)) ++
        (assembled config nodes).warnings, (assembled config nodes).result⟩ := by
  rw [planOf, matchBlocks_of_pairs distinct pairs.loosen, bind_ok, ← pairs.dangling_eq distinct,
    compile_eq_assembled true blocks dangling _ distinct pairs.loosen fun block member =>
      find?_of_pairs pairs distinct member]

/-- **The plan of a forest whose markers match in every sibling list** is the one that recursion
gives, and nothing is warned about but by compiling. -/
theorem planOf_of_nested {nodes : List Tree} (distinct : Distinct nodes) (leafy : Leafy nodes)
    (nested : Nested config false nodes) : planOf config nodes = assembled config nodes := by
  obtain ⟨blocks, dangling, pairs, strict⟩ := exists_pairs_of_nested leafy nested
  rw [planOf_of_pairs distinct pairs, strict rfl]
  rfl

/-- The plan of a forest whose blocks are known, whatever end markers are warned about. -/
theorem result_planOf_of_pairs {loose : Bool} {nodes dangling : List Tree} {blocks : List Block}
    (distinct : Distinct nodes) (pairs : Pairs config loose nodes blocks dangling) :
    (planOf config nodes).result = (assembled config nodes).result := by
  rw [planOf_of_pairs distinct pairs]

/-- **The plan of a forest whose markers can be matched** is the one that recursion gives. -/
theorem planOf_eq_assembled {nodes : List Tree} (distinct : Distinct nodes) (leafy : Leafy nodes)
    {plan : Plan} (planned : (planOf config nodes).result = .ok plan) :
    (assembled config nodes).result = .ok plan ∧ Nested config true nodes := by
  obtain ⟨index, matched, _⟩ := result_bind planned
  have nested : Nested config true nodes := nested_of_matchBlocks distinct leafy matched
  obtain ⟨blocks, dangling, pairs, _⟩ := exists_pairs_of_nested leafy nested
  exact ⟨(result_planOf_of_pairs distinct pairs).symm.trans planned, nested⟩

/-- **A compiled template has the merged steps of its forest.** -/
theorem exists_steps_of_ofMarkup {evaluator : Evaluator} {markup : String} {template : Template}
    (compiled : (ofMarkup evaluator config markup).result = .ok template) :
    ∃ fragment steps, Markup.parse markup = .ok fragment ∧
      (assemble config fragment.rootTrees).result = .ok steps ∧ template.plan = merge steps ∧
      template.config = config ∧ template.evaluator = evaluator := by
  unfold ofMarkup at compiled
  cases parsed : Markup.parse markup with
  | error error =>
    rw [parsed] at compiled
    cases compiled
  | ok fragment =>
    rw [parsed] at compiled
    have grown := grown_of_parse parsed
    have made : ((planOf config fragment.rootTrees).result.map fun plan =>
        (⟨plan, config, evaluator, (planOf config fragment.rootTrees).warnings⟩ : Template)) =
          .ok template := compiled
    cases planned : (planOf config fragment.rootTrees).result with
    | error error =>
      rw [planned] at made
      cases made
    | ok plan =>
      rw [planned] at made
      cases made
      obtain ⟨steps, found, same⟩ :=
        result_map (planOf_eq_assembled grown.distinct grown.leafy planned).1
      exact ⟨fragment, steps, rfl, found, same.symm, rfl, rfl⟩

end Template

end DataBind
