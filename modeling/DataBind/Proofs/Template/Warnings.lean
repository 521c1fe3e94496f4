/-
**What a template is warned about.**

Matching warns about end markers that nothing opens, and compiling about entries of a binding
attribute that repeat a kind. Elements are compiled in several passes, the markers are dropped by
another, and all of these add to one list: still every finding is in it once, in document order.

* `duplicates`: the warnings of a node by itself;
* `warnings_elementPlan`, `warnings_nodeSteps`: the warnings of an element are its own, and then
  those of its children;
* `warnings_assemble`: the warnings of a forest are those of its visible nodes;
* `assemble_without`: end markers that nothing opens leave no trace in the steps of a forest;
* `Exact`, `ofFragment_warnings`: both for fragments, with what becomes of one without the markers.
-/

import DataBind.Proofs.Block.Dangling
import DataBind.Proofs.Markup.Realizing
import DataBind.Proofs.Template.Container
import DataBind.Proofs.Template.Outcome

namespace DataBind

namespace Checked

variable {α β : Type}

@[simp] theorem warnings_map (f : α → β) (checked : Checked α) :
    (f <$> checked).warnings = checked.warnings := by
  obtain ⟨warnings, _ | value⟩ := checked
  · rfl
  · rw [map_ok]

/-- A step that is followed by a certain value. -/
theorem warnings_bind_pure (first : Checked α) (f : α → β) :
    (first >>= fun value => pure (f value)).warnings = first.warnings := by
  obtain ⟨warnings, _ | value⟩ := first
  · rfl
  · rw [bind_ok]
    exact List.append_nil _

/-- The warnings of two sequences of findings, unless the first ends in an error. -/
theorem warnings_both {first : Checked (List α)} (clean : first.error? = none)
    (second : Checked (List α)) :
    (both first second).warnings = first.warnings ++ second.warnings := by
  obtain ⟨found, passed⟩ := error?_eq_none.mp clean
  obtain ⟨early, _⟩ := first
  cases passed
  rw [both_ok]

theorem warnings_both_pure (first : Checked (List α)) (found : List α) :
    (both first (pure found)).warnings = first.warnings := by
  obtain ⟨early, _ | more⟩ := first
  · rfl
  · rw [pure_eq, both_ok]
    exact List.append_nil early

end Checked

namespace Template

open Markup Markup.Tree Block Checked

variable {config : Config}

/-! ### The warnings of elements -/

/-- What is warned about in a node by itself: the entries of its binding attribute whose kind an
earlier entry has, in the order written. -/
def duplicates (config : Config) (node : Tree) : List Warning :=
  match node.content with
  | .element tag attributes =>
    match (attributes.lookup config.bindingAttribute).map Binding.entriesOf with
    | some (.ok entries) =>
      (Binding.repetitions (Binding.kindsOf entries)).map fun kind =>
        .duplicateBinding tag kind.name
    | _ => []
  | _ => []

/-- No node warns about an end marker by itself. -/
theorem danglingEnd_not_mem_duplicates (config : Config) (node : Tree) (marker : String) :
    .danglingEnd marker ∉ duplicates config node := by
  unfold duplicates
  split
  · split
    · simp
    · simp
  · simp

section Elements

variable {inner : List Tree → Checked Plan} {children body : List Tree} {tag source : String}
  {entries : List (String × String)} {attributes : List Attribute}

/-- Of the step of a binding, only its body warns. -/
theorem warnings_scopeStep {binding : Binding}
    (clean : (scopeStep inner binding body).error? = none) :
    (scopeStep inner binding body).warnings =
      if binding.kind.hasPlan then (inner body).warnings else [] := by
  obtain ⟨kind, source⟩ := binding
  have planned : ∀ f : Plan → Option Step,
      (inner body >>= fun plan => pure (f plan)).warnings = (inner body).warnings :=
    fun f => warnings_bind_pure _ f
  cases kind with
  | showIf => exact planned _
  | showIfNot => exact planned _
  | scope => exact planned _
  | forEach =>
    unfold scopeStep at clean ⊢
    simp only at clean ⊢
    cases read : Binding.parseIteration source with
    | error error =>
      rw [read] at clean
      cases clean
    | ok iteration => exact planned _
  | _ => rfl

/-- **The content of an element shows a value** if some binding does: bindings do not conflict. -/
theorem isValue_contentBinding? (quiet : Binding.conflict? (Binding.bindingsOf entries) = none) :
    (contentBinding? (Binding.bindingsOf entries)).any (fun binding => binding.kind.isValue) =
      (Binding.bindingsOf entries).any fun binding => binding.kind.isValue := by
  cases shows : (Binding.bindingsOf entries).any fun binding => binding.kind.isValue with
  | true =>
    obtain ⟨⟨kind, source⟩, member, value⟩ := List.any_eq_true.mp shows
    rw [contentBinding?_of_valueOf? quiet (Or.inr value) (Binding.mem_bindingsOf.mp member)]
    exact value
  | false =>
    rw [contentBinding?_eq fun binding member =>
      Bool.eq_false_iff.mpr (List.any_eq_false.mp shows binding member)]
    cases found : (Binding.bindingsOf entries).find? fun binding => binding.kind == .forEach with
    | none => rfl
    | some binding =>
      have kind : binding.kind = .forEach := by simpa using List.find?_some found
      simp [kind, Binding.Kind.isValue]

/-- The content of an element warns as its children do, unless they are replaced by a value. -/
theorem warnings_innerSteps (quiet : Binding.conflict? (Binding.bindingsOf entries) = none)
    (clean : (innerSteps inner (Binding.bindingsOf entries) children).error? = none) :
    (innerSteps inner (Binding.bindingsOf entries) children).warnings =
      if (Binding.bindingsOf entries).any fun binding => binding.kind.isValue then []
      else (inner children).warnings := by
  rw [← isValue_contentBinding? quiet]
  unfold innerSteps at clean ⊢
  cases found : contentBinding? (Binding.bindingsOf entries) with
  | none => simp
  | some binding =>
    rw [found] at clean
    simp only [error?_map, warnings_map] at clean ⊢
    rw [warnings_scopeStep clean]
    have kinds := List.find?_some found
    obtain ⟨kind, source⟩ := binding
    cases kind <;> simp_all [Binding.Kind.hasPlan, Binding.Kind.isValue]

/-- An element warns behind its start tag as its children do, where they have a plan. -/
theorem warnings_finishElement (opening : List Step)
    (quiet : Binding.conflict? (Binding.bindingsOf entries) = none)
    (clean : (finishElement inner tag (Binding.bindingsOf entries) children opening).error? =
      none) :
    (finishElement inner tag (Binding.bindingsOf entries) children opening).warnings =
      if plansContent tag (Binding.bindingsOf entries) then (inner children).warnings else [] := by
  rw [finishElement] at clean ⊢
  cases leaves : leavesContent (Binding.bindingsOf entries) with
  | true =>
    simp only [leavesContent, Bool.and_eq_true, Bool.not_eq_true'] at leaves
    simp [plansContent, leaves.1, pure_eq]
  | false =>
    cases void : isVoid tag with
    | true =>
      rw [plansContent, void]
      rfl
    | false =>
      rw [leaves, void] at clean
      have inside : (innerSteps inner (Binding.bindingsOf entries) children).error? = none :=
        (error?_bind_pure _ _).symm.trans ((error?_bind_pure _ _).symm.trans clean)
      refine (warnings_bind_pure _ _).trans ((warnings_bind_pure _ _).trans ?_)
      rw [warnings_innerSteps quiet inside, plansContent, void]
      cases shows : (Binding.bindingsOf entries).any fun binding => binding.kind.isValue with
      | true => simp
      | false =>
        have planned : ((Binding.bindingsOf entries).any fun binding =>
            binding.kind.hasPlan) = true := by
          simpa [leavesContent, shows] using leaves
        rw [planned]
        rfl

/-- **The warnings of an element**: those of its binding attribute, and then those of its children
where they have a plan. -/
theorem warnings_elementPlan {bindings : List Binding}
    (parsed : (Binding.parseContainer source tag).result = .ok bindings)
    (clean : (elementPlan inner tag source attributes children).error? = none) :
    (elementPlan inner tag source attributes children).warnings =
      (Binding.parseContainer source tag).warnings ++
        if plansContent tag bindings then (inner children).warnings else [] := by
  obtain ⟨entries, _, rfl, quiet⟩ := Binding.exists_of_parseContainer parsed
  rw [elementPlan_eq, error?_bind_of_ok parsed] at clean
  rw [elementPlan_eq, warnings_bind_ok _ parsed]
  congr 1
  cases made : (lift (allBindingSteps (Binding.bindingsOf entries) attributes)).result with
  | error error =>
    rw [error?_bind_of_error made] at clean
    cases clean
  | ok pair =>
    rw [error?_bind_of_ok made] at clean
    rw [warnings_bind_ok _ made, warnings_finishElement _ quiet clean]
    rfl

/-- An element with bindings that can be read warns about its own, and then about what is below it
unless it hides that. -/
theorem warnings_boundSteps {node : Tree}
    (content : node.content = .element tag attributes)
    (bound : attributes.lookup config.bindingAttribute = some source)
    (clean : (nodeSteps config (assembled config) (assemble config node.children) node).error? =
      none) :
    (nodeSteps config (assembled config) (assemble config node.children) node).warnings =
      duplicates config node ++
        if hidesChildren config node then [] else (assemble config node.children).warnings := by
  rw [nodeSteps_of_bound content bound] at clean ⊢
  cases made : (elementPlan (assembled config) tag source
      (attributes.filter fun entry => entry.1 != config.bindingAttribute) node.children).result with
  | error error =>
    rw [error?_bind_of_error made] at clean
    cases clean
  | ok element =>
    obtain ⟨bindings, _, _, parsed, _⟩ := exists_of_elementPlan made
    obtain ⟨entries, read, _⟩ := Binding.exists_of_parseContainer parsed
    have own : duplicates config node = (Binding.parseContainer source tag).warnings := by
      rw [Binding.warnings_parseContainer read, duplicates, content]
      simp only [bound, Option.map_some, read]
    have below : (assembled config node.children).warnings =
        (assemble config node.children).warnings := warnings_map merge _
    rw [warnings_bind_ok _ made, warnings_elementPlan parsed (error?_of_ok made), own, below,
      hidesChildren_eq content bound parsed, isComplete_of_elementPlan made parsed,
      List.append_assoc]
    congr 1
    have walked : ∀ complete : Bool,
        (if complete then pure element.steps else both (pure element.steps)
          (both (assemble config node.children) (pure [.literal (tagEnd tag)]))).warnings =
        if complete then [] else (assemble config node.children).warnings := by
      intro complete
      cases complete with
      | true => rfl
      | false =>
        refine (warnings_both rfl _).trans ?_
        exact warnings_both_pure _ _
    rw [walked]
    -- the children are compiled by the element or by the walk, unless they are hidden
    unfold plansContent leavesContent
    cases isVoid tag <;> cases bindings.any fun binding => binding.kind.hasPlan <;>
      cases bindings.any fun binding => binding.kind.isValue <;> simp

/-- **The warnings of a node that is no start marker**: its own, and then those of what is below it
unless it hides that. -/
theorem warnings_nodeSteps {node : Tree}
    (word : ∀ binding, directive? config node ≠ some (.opening binding))
    (leaf : node.content.isElement = false → node.children = [])
    (clean : (nodeSteps config (assembled config) (assemble config node.children) node).error? =
      none) :
    (nodeSteps config (assembled config) (assemble config node.children) node).warnings =
      duplicates config node ++
        if hidesChildren config node then [] else (assemble config node.children).warnings := by
  have bare : node.content.isElement = false → (assemble config node.children).warnings = [] := by
    intro plain
    rw [leaf plain, assemble_nil]
    rfl
  cases content : node.content with
  | element tag attributes =>
    cases bound : attributes.lookup config.bindingAttribute with
    | some source => exact warnings_boundSteps content bound clean
    | none =>
      have free : duplicates config node = [] := by
        rw [duplicates, content]
        simp only [bound, Option.map_none]
      have hides : hidesChildren config node = isVoid tag := by
        unfold hidesChildren
        simp [content, bound]
      obtain ⟨id, _, children⟩ := node
      cases content
      rw [free, hides, nodeSteps, bound]
      cases isVoid tag with
      | true => rfl
      | false =>
        refine (warnings_both rfl _).trans ?_
        exact warnings_both_pure _ _
  | comment text =>
    rw [content] at bare
    rw [bare rfl, ite_self, duplicates, content]
    obtain ⟨id, _, children⟩ := node
    cases content
    rw [nodeSteps]
    split <;> rfl
  | _ =>
    rw [content] at bare
    rw [bare rfl, ite_self, duplicates, content]
    obtain ⟨id, _, children⟩ := node
    cases content
    rfl

end Elements

/-! ### The warnings of a forest -/

/-- Markers do not warn by themselves. -/
theorem duplicates_of_directive {node : Tree} {word : Binding.Directive}
    (said : directive? config node = some word) : duplicates config node = [] := by
  obtain ⟨text, content, _⟩ := exists_comment_of_directive said
  rw [duplicates, content]

/-- **The warnings of a forest are those of its visible nodes**, in document order. -/
theorem warnings_assemble {loose : Bool} {nodes dangling : List Tree} {blocks : List Block}
    (pairs : Pairs config loose nodes blocks dangling) (distinct : Distinct nodes)
    (leafy : Leafy nodes) (clean : (assemble config nodes).error? = none) :
    (assemble config nodes).warnings =
      (visible config blocks nodes).flatMap (duplicates config) := by
  have split : ∀ (hidden : Bool) (below : List Tree),
      (if hidden then [] else below).flatMap (duplicates config) =
        if hidden then [] else below.flatMap (duplicates config) := by
    intro hidden below
    cases hidden <;> rfl
  induction pairs with
  | nil => simp [pure_eq]
  | @other _ first rest below _ _ _ plain children later under after =>
    obtain ⟨_, _, distinctBelow, distinctLater, _⟩ := distinct.cons
    have word := fun binding => not_opening_of_plain binding plain
    rw [assemble_cons word, error?_both, Option.or_eq_none_iff] at clean
    obtain ⟨here, behind⟩ := clean
    have inside : hidesChildren config first = false →
        (assemble config first.children).error? = none := by
      intro shown
      rw [error?_nodeSteps word leafy.head, shown, Option.or_eq_none_iff] at here
      exact here.2
    rw [assemble_cons word, warnings_both here, warnings_nodeSteps word leafy.head here,
      visible_other children later distinct, List.flatMap_cons, List.flatMap_append, split,
      after distinctLater leafy.cons.2 behind, List.append_assoc]
    cases hides : hidesChildren config first with
    | true => rfl
    | false => rw [under distinctBelow leafy.cons.1 (inside hides)]
  | @dangling node _ _ _ closing leaf later after =>
    have word := fun binding => not_opening_of_closing binding closing
    rw [assemble_cons word, error?_both, Option.or_eq_none_iff] at clean
    obtain ⟨here, behind⟩ := clean
    rw [assemble_cons word, warnings_both here, warnings_nodeSteps word (fun _ => leaf) here,
      visible_dangling closing leaf later distinct, List.flatMap_cons, leaf, assemble_nil,
      after distinct.cons.2.2.2.1 leafy.cons.2 behind]
    simp [pure_eq]
  | @block _ binding start finish body rest _ _ _ opening leaf closing last within later inside
      after =>
    obtain ⟨_, distinctBody, distinctRest, _⟩ := distinct_block distinct leaf last
    obtain ⟨leafyBody, leafyFinish⟩ := leafy.cons.2.append
    rw [assemble_block opening (within.balanced rfl) closing, error?_both, error?_map,
      Option.or_eq_none_iff] at clean
    obtain ⟨here, behind⟩ := clean
    have planned : (if binding.kind.hasPlan then (assembled config body).warnings else []) =
        if binding.kind.isValue then [] else (assemble config body).warnings := by
      rw [assembled, warnings_map, hasPlan_of_opening opening]
      cases binding.kind.isValue <;> rfl
    have sound : binding.kind.isValue = false → (assemble config body).error? = none := by
      intro shown
      rw [error?_scopeStep, hasPlan_of_opening opening, shown, Option.or_eq_none_iff,
        error?_assembled] at here
      exact here.2
    rw [assemble_block opening (within.balanced rfl) closing, warnings_both (by rwa [error?_map]),
      warnings_map, warnings_scopeStep here, planned,
      visible_block opening leaf closing last within later distinct, List.flatMap_cons,
      List.flatMap_append, split, List.flatMap_cons, duplicates_of_directive opening,
      duplicates_of_directive closing, after distinctRest leafyFinish.cons.2 behind]
    cases shows : binding.kind.isValue with
    | true => rfl
    | false =>
      rw [inside distinctBody leafyBody (sound shows)]
      rfl

/-! ### Forests without the markers that nothing opens -/

/-- An end marker stands for nothing. -/
theorem nodeSteps_of_closing {node : Tree} (closing : directive? config node = some .closing)
    (inner : List Tree → Checked Plan) (below : Checked (List Step)) :
    nodeSteps config inner below node = pure [] := by
  obtain ⟨text, content, said⟩ := exists_comment_of_directive closing
  obtain ⟨id, _, children⟩ := node
  cases content
  rw [nodeSteps, said]

/-- **End markers that nothing opens leave no trace**: without them a forest has the same steps, and
the same is warned about on the way. -/
theorem assemble_without {loose : Bool} {nodes dangling : List Tree} {blocks : List Block}
    (pairs : Pairs config loose nodes blocks dangling) (distinct : Distinct nodes) :
    assemble config (without dangling nodes) = assemble config nodes := by
  induction pairs with
  | nil => rfl
  | @other _ first rest _ _ deeper _ plain children later under after =>
    obtain ⟨_, _, distinctBelow, distinctLater, _⟩ := distinct.cons
    let lean := Markup.Tree.node first.id first.content (without deeper first.children)
    have said : directive? config lean = none := (directive?_of_content rfl).trans plain
    have below := under distinctBelow
    have plan : assembled config lean.children = assembled config first.children :=
      congrArg (merge <$> ·) below
    rw [without_other children later distinct, assemble_cons (by rw [said]; simp),
      assemble_cons (by rw [plain]; simp), after distinctLater]
    refine congrArg (both · _) ?_
    rw [show assemble config lean.children = assemble config first.children from below]
    exact @nodeSteps_congr config (assembled config) (assembled config) lean first rfl plan _
  | dangling closing leaf later after =>
    rw [Block.without_dangling distinct, assemble_cons (by rw [closing]; simp),
      nodeSteps_of_closing closing, nil_both, after distinct.cons.2.2.2.1]
  | block opening leaf closing last within later _ after =>
    have level := within.balanced rfl
    rw [without_block leaf last later distinct, assemble_block opening level closing,
      assemble_block opening level closing, after (distinct_block distinct leaf last).2.2.1]

/-! ### Exact warnings -/

/-- The warnings about a forest whose blocks are known. -/
structure Exact (config : Config) (nodes : List Tree) (index : Block.Index)
    (warnings : List Warning) : Prop where
  /-- There is one for each end marker that is met with no block open, and then there are those of
  the visible nodes. -/
  listed : warnings =
    (unopened config nodes).map (fun marker => .danglingEnd (markerText marker)) ++
      (visible config index.blocks nodes).flatMap (duplicates config)
  /-- Such end markers are those that end no block, in document order. -/
  markers : unopened config nodes = unpaired config index.blocks nodes
  /-- The visible nodes are in document order, and none is among them twice. -/
  once : (visible config index.blocks nodes).Sublist (subtreesAll nodes) ∧
    ((visible config index.blocks nodes).map Tree.id).Nodup
  /-- Compiling reaches the visible nodes, and no others. -/
  reached : ∀ node, IsSite config node →
    ((∃ given forest state parent, Pass config index nodes given forest ∧
      Meets config given forest state parent node) ↔ node ∈ visible config index.blocks nodes)
  /-- What is replaced by a value is not visible. -/
  replaced : ∀ node ∈ visible config index.blocks nodes,
    (∀ above ∈ subtreesAll nodes, hidesChildren config above = true →
      node ∉ subtreesAll above.children) ∧
    ∀ block ∈ index.blocks, block.binding.kind.isValue = true → node ∉ subtreesAll block.body

/-- What is visible stands neither below a node that hides it nor in a block that shows a value. -/
theorem not_mem_of_visible {blocks : List Block} {nodes : List Tree} {node : Tree}
    (shown : node ∈ visible config blocks nodes) :
    (∀ above ∈ subtreesAll nodes, hidesChildren config above = true →
      node ∉ subtreesAll above.children) ∧
    ∀ block ∈ blocks, block.binding.kind.isValue = true → node ∉ subtreesAll block.body := by
  have free := (List.mem_filter.mp shown).2
  rw [Bool.not_eq_true', isHidden, Bool.or_eq_false_iff, List.any_eq_false,
    List.any_eq_false] at free
  obtain ⟨above, within⟩ := free
  refine ⟨fun other member hides inside => above other member ?_,
    fun block member value inside => within block member ?_⟩
  · rw [hides, Bool.true_and, decide_eq_true_eq]
    exact id_mem_idsAll inside
  · rw [value, Bool.true_and, decide_eq_true_eq]
    exact id_mem_idsAll inside

/-- The template of a fragment has the plan of its forest, and the warnings of planning it. -/
theorem plan_of_ofFragment {evaluator : Evaluator} {fragment : Fragment} {template : Template}
    (compiled : (ofFragment evaluator config fragment).result = .ok template) :
    (planOf config fragment.rootTrees).result = .ok template.plan ∧
      template.warnings = (planOf config fragment.rootTrees).warnings := by
  rw [result_ofFragment] at compiled
  cases planned : (planOf config fragment.rootTrees).result with
  | error error =>
    rw [planned] at compiled
    cases compiled
  | ok plan =>
    rw [planned] at compiled
    cases compiled
    exact ⟨rfl, rfl⟩

/-- **The warnings about a forest that can be planned are exact.** -/
theorem exact_of_planOf {nodes : List Tree} (distinct : Distinct nodes) (leafy : Leafy nodes)
    {index : Block.Index} (matched : (matchBlocks config nodes).result = .ok index) {plan : Plan}
    (planned : (planOf config nodes).result = .ok plan) :
    Exact config nodes index (planOf config nodes).warnings := by
  obtain ⟨blocks, dangling, pairs, _⟩ :=
    exists_pairs_of_nested leafy (nested_of_matchBlocks distinct leafy matched)
  have markers := unopened_of_pairs distinct pairs.loosen
  obtain ⟨found, same, compiled⟩ := result_bind planned
  rw [matched] at same
  cases same
  have reached := fun node => @met_iff_visible_of_matched config index nodes plan distinct leafy
    matched compiled node
  rw [matchBlocks_of_pairs distinct pairs.loosen] at matched
  cases matched
  have clean : (assemble config nodes).error? = none := by
    rw [← error?_assembled, error?, ← result_planOf_of_pairs distinct pairs, planned]
  refine ⟨?_, ?_, ⟨List.filter_sublist, ?_⟩, reached, fun node shown => not_mem_of_visible shown⟩
  · rw [planOf_of_pairs distinct pairs, markers, assembled, warnings_map,
      warnings_assemble pairs distinct leafy clean]
    simp only [visible_congr fun _ => List.mem_reverse]
  · rw [markers, unpaired_reverse, ← pairs.dangling_eq distinct]
  · exact distinct.sublist (List.filter_sublist.map Tree.id)

/-- **The plan of a forest without the markers that nothing opens** is the plan of the forest, and
only the visible nodes are warned about. -/
theorem planOf_of_without {nodes others : List Tree} (distinct : Distinct nodes)
    (leafy : Leafy nodes) {index : Block.Index}
    (matched : (matchBlocks config nodes).result = .ok index) {plan : Plan}
    (planned : (planOf config nodes).result = .ok plan) (apart : Distinct others)
    (also : Leafy others)
    (same : shapeAll others = shapeAll (without (unopened config nodes) nodes)) :
    planOf config others =
      ⟨(visible config index.blocks nodes).flatMap (duplicates config), .ok plan⟩ := by
  obtain ⟨blocks, dangling, pairs, _⟩ :=
    exists_pairs_of_nested leafy (nested_of_matchBlocks distinct leafy matched)
  have exact := exact_of_planOf distinct leafy matched planned
  have listed := exact.listed
  rw [planOf_of_pairs distinct pairs] at planned listed
  rw [unopened_of_pairs distinct pairs.loosen] at same listed
  have nested := ((pairs.without_dangling distinct).nested rfl).of_shapeAll_eq same
  have steps : assembled config others = assembled config nodes :=
    congrArg (merge <$> ·)
      ((assemble_of_shapeAll_eq same).trans (assemble_without pairs distinct))
  rw [planOf_of_nested apart also nested, steps, ← List.append_cancel_left listed, ← planned]

/-- **Warnings are exact, and end markers that nothing opens are inert.** For every fragment that
compiles, the warnings of its template are one for each end marker that is met with no block open,
in document order, and then one for each entry of a binding attribute that repeats a known kind, of
the elements that compiling reaches in document order and in the order written. A fragment without
these end markers exists and compiles to the same plan, without warnings about end markers. -/
theorem ofFragment_warnings (evaluator : Evaluator) (config : Config) (fragment : Fragment)
    (grown : fragment.Grown) {template : Template}
    (compiled : (ofFragment evaluator config fragment).result = .ok template) :
    ∃ index, (matchBlocks config fragment.rootTrees).result = .ok index ∧
      Exact config fragment.rootTrees index template.warnings ∧
      (∃ reduced : Fragment, reduced.Grown ∧ shapeAll reduced.rootTrees =
        shapeAll (without (unopened config fragment.rootTrees) fragment.rootTrees)) ∧
      ∀ reduced : Fragment, reduced.Grown →
        shapeAll reduced.rootTrees =
          shapeAll (without (unopened config fragment.rootTrees) fragment.rootTrees) →
        ∃ other, (ofFragment evaluator config reduced).result = .ok other ∧
          other.plan = template.plan ∧
          other.warnings =
            (visible config index.blocks fragment.rootTrees).flatMap (duplicates config) ∧
          ∀ marker, .danglingEnd marker ∉ other.warnings := by
  obtain ⟨planned, noted⟩ := plan_of_ofFragment compiled
  obtain ⟨index, matched, _⟩ := result_bind planned
  refine ⟨index, matched, ?_, ?_, fun reduced others same => ?_⟩
  · rw [noted]
    exact exact_of_planOf grown.distinct grown.leafy matched planned
  · refine exists_fragment_of_leafy (grown.leafy.removeEach _) ?_
    exact (length_removeEach_le _ _).trans (grown.length_le.trans grown.size_le)
  · have plan := planOf_of_without grown.distinct grown.leafy matched planned others.distinct
      others.leafy same
    let own := (visible config index.blocks fragment.rootTrees).flatMap (duplicates config)
    refine ⟨⟨template.plan, config, evaluator, own⟩, ?_, rfl, rfl, fun marker member => ?_⟩
    · rw [result_ofFragment, plan]
      rfl
    · obtain ⟨node, _, inside⟩ := List.mem_flatMap.mp member
      exact danglingEnd_not_mem_duplicates config node marker inside

/-- Two end markers that nothing opens, one of them below an element that shows a value, where
nothing else is warned about; and two elements with repeated bindings, one in the other. -/
theorem ofFragment_warnings_nested : ∃ fragment reduced template other,
    parse ("<!-- /ko --><ul data-bind=\"css: a, foreach: b, css: c\">x<!-- /hz --><li " ++
      "data-bind=\"text: d, text: e\"><b data-bind=\"html: f, html: g\"></b></li></ul>") =
        .ok fragment ∧
      parse ("<ul data-bind=\"css: a, foreach: b, css: c\">x<li " ++
        "data-bind=\"text: d, text: e\"><b data-bind=\"html: f, html: g\"></b></li></ul>") =
        .ok reduced ∧
      (ofFragment CommandLine.evaluator {} fragment).result = .ok template ∧
      template.warnings = [.danglingEnd "/ko", .danglingEnd "/hz", .duplicateBinding "ul" "css",
        .duplicateBinding "li" "text"] ∧
      (ofFragment CommandLine.evaluator {} reduced).result = .ok other ∧
      other.plan = template.plan ∧
      other.warnings = [.duplicateBinding "ul" "css", .duplicateBinding "li" "text"] := by
  have read : (parse ("<!-- /ko --><ul data-bind=\"css: a, foreach: b, css: c\">x<!-- /hz --><li " ++
      "data-bind=\"text: d, text: e\"><b data-bind=\"html: f, html: g\"></b></li></ul>")
      ).toOption.any (fun fragment => (parse ("<ul data-bind=\"css: a, foreach: b, css: c\">x<li " ++
        "data-bind=\"text: d, text: e\"><b data-bind=\"html: f, html: g\"></b></li></ul>")
        ).toOption.any fun reduced =>
        decide (shapeAll reduced.rootTrees =
          shapeAll (without (unopened {} fragment.rootTrees) fragment.rootTrees)) &&
        decide ((unopened {} fragment.rootTrees).map markerText = ["/ko", "/hz"]) &&
        match (matchBlocks {} fragment.rootTrees).result with
        | .ok index =>
          ((visible {} index.blocks fragment.rootTrees).findSome? (fault? {})).isNone &&
          decide ((visible {} index.blocks fragment.rootTrees).flatMap (duplicates {}) =
            [.duplicateBinding "ul" "css", .duplicateBinding "li" "text"])
        | .error _ => false) = true := by
    decide +kernel
  obtain ⟨fragment, parsed, read⟩ := exists_of_parse_any read
  obtain ⟨reduced, parsedReduced, read⟩ := exists_of_parse_any read
  simp only [Bool.and_eq_true, decide_eq_true_eq] at read
  obtain ⟨⟨same, markers⟩, read⟩ := read
  have grown := grown_of_parse parsed
  split at read
  · rename_i index matched
    rw [Bool.and_eq_true, Option.isNone_iff_eq_none, decide_eq_true_eq] at read
    obtain ⟨quiet, own⟩ := read
    have clean : (planOf {} fragment.rootTrees).error? = _ :=
      error?_planOf grown.distinct grown.leafy
    rw [matched] at clean
    obtain ⟨plan, planned⟩ := error?_eq_none.mp (clean.trans quiet)
    have compiled := result_ofFragment CommandLine.evaluator {} fragment
    rw [planned] at compiled
    obtain ⟨_, again, exact, _, inert⟩ :=
      ofFragment_warnings CommandLine.evaluator {} fragment grown compiled
    rw [matched] at again
    cases again
    obtain ⟨other, compiledReduced, plans, warnings, _⟩ :=
      inert reduced (grown_of_parse parsedReduced) same
    refine ⟨fragment, reduced, _, other, parsed, parsedReduced, compiled, ?_, compiledReduced,
      plans, warnings.trans own⟩
    have listed := exact.listed
    rw [own, ← Function.comp_def Warning.danglingEnd markerText, ← List.map_map, markers] at listed
    exact listed
  · cases read

end Template

end DataBind
