/-
**Compiling is compositional.**

Every block and element with an inner plan that compiling a fragment meets has, inside of the step
that it emits, the plan that its body or its children have on their own.

* `find?_of_part`: the blocks of a part of a forest are those of the forest that start in the part;
* `error?_planOf`: the error of a forest on its own;
* `Standalone`: a part of a fragment that compiles on its own;
* `compile_compositional`: the inner plans of a fragment are those of its parts on their own.
-/

import DataBind.CommandLine.Run
import DataBind.Proofs.Template.Faults

namespace DataBind.Template

open Markup Markup.Tree Block Checked

variable {config : Config}

/-! ### Blocks of a part -/

/-- **The blocks of a part of a forest** are those of the forest that start in the part. -/
theorem find?_of_part {loose tight : Bool} {nodes part dangling lost : List Tree}
    {blocks few : List Block} (pairs : Pairs config loose nodes blocks dangling)
    (distinct : Distinct nodes) (within : Pairs config tight part few lost) (subset : few ⊆ blocks)
    (sublist : (subtreesAll part).Sublist (subtreesAll nodes)) (start : NodeId) :
    (⟨few.reverse⟩ : Block.Index).find? start =
      if start ∈ idsAll part then (⟨blocks.reverse⟩ : Block.Index).find? start else none := by
  have distinctPart : Distinct part := distinct.sublist (sublist.map Tree.id)
  by_cases known : ∃ block ∈ few, block.start = start
  · obtain ⟨block, member, rfl⟩ := known
    rw [find?_of_pairs within distinctPart member, find?_of_pairs pairs distinct (subset member),
      if_pos (within.span_subset member (start_mem_span block))]
  · have absent : ∀ block ∈ few, block.start ≠ start := fun block member same =>
      known ⟨block, member, same⟩
    have unknown : (⟨few.reverse⟩ : Block.Index).find? start = none := by
      rw [Block.Index.find?, List.find?_eq_none]
      intro block member
      simpa using absent block (List.mem_reverse.mp member)
    rw [unknown]
    by_cases inside : start ∈ idsAll part
    · -- a start marker in the part would have its block among the few
      rw [if_pos inside, eq_comm, Block.Index.find?, List.find?_eq_none]
      intro block member
      obtain ⟨marker, here, same, opening⟩ := pairs.exists_start (List.mem_reverse.mp member)
      obtain ⟨node, deep, rfl⟩ := List.mem_map.mp inside
      rw [beq_iff_eq]
      intro equal
      have one := distinct.eq_of_id (sublist.subset deep) here (equal.symm.trans same.symm)
      subst one
      obtain ⟨own, among, starts, _⟩ := within.exists_block_of_opening deep opening
      exact absent own among starts
    · rw [if_neg inside]

/-! ### Parts on their own -/

/-- **The error of a forest on its own**: that of its blocks, or the first one of its visible
nodes. -/
theorem error?_planOf {nodes : List Tree} (distinct : Distinct nodes) (leafy : Leafy nodes) :
    (planOf config nodes).error? =
      match (matchBlocks config nodes).result with
      | .error error => some error
      | .ok index => (visible config index.blocks nodes).findSome? (fault? config) := by
  cases matched : (matchBlocks config nodes).result with
  | error error => exact error?_bind_of_error matched _
  | ok index =>
    obtain ⟨blocks, dangling, pairs, _⟩ :=
      exists_pairs_of_nested leafy (nested_of_matchBlocks distinct leafy matched)
    rw [matchBlocks_of_pairs distinct pairs] at matched
    cases matched
    have same : visible config blocks.reverse nodes = visible config blocks nodes :=
      visible_congr (fun _ => List.mem_reverse) nodes
    rw [error?, result_planOf_of_pairs distinct pairs]
    show (assembled config nodes).error? = _
    rw [error?_assembled, error?_assemble pairs distinct leafy, ← same]

/-- The result of compiling nodes of a fragment is that of planning their trees. -/
theorem result_ofNodes (evaluator : Evaluator) (fragment : Fragment) (ids : List NodeId) :
    (ofNodes evaluator config fragment ids).result =
      (planOf config (fragment.trees ids)).result.map fun plan =>
        ⟨plan, config, evaluator, (planOf config (fragment.trees ids)).warnings⟩ := rfl

/-- On its own a part of a fragment is compiled to a template with a plan, and matching its blocks
finds those of the whole that start in it. -/
structure Standalone (evaluator : Evaluator) (config : Config) (fragment : Fragment)
    (index : Block.Index) (part : List Tree) (plan : Plan) : Prop where
  compiles : ∃ template, (ofNodes evaluator config fragment (part.map Tree.id)).result =
    .ok template ∧ template.plan = plan
  blocks : ∃ own, (matchBlocks config part).result = .ok own ∧
    ∀ start, own.find? start = if start ∈ idsAll part then index.find? start else none

/-- The trees of a part of a fragment are found by their ids. -/
theorem trees_map_id {fragment : Fragment} {part : List Tree}
    (sublist : (subtreesAll part).Sublist (subtreesAll fragment.rootTrees)) :
    fragment.trees (part.map Tree.id) = part := by
  have found : ∀ tree ∈ part, fragment.tree? tree.id = some tree := fun tree member =>
    Fragment.tree?_of_mem_subtreesAll (fun _ top => Fragment.tree?_of_mem_trees top)
      (sublist.subset (mem_subtreesAll_of_mem member))
  rw [Fragment.trees, List.filterMap_map]
  exact (List.filterMap_congr found).trans List.filterMap_some

/-- **A part that a pass compiles compiles on its own**, to the same plan. -/
theorem standalone_of_part {evaluator : Evaluator} {fragment : Fragment} {blocks : List Block}
    {loose : Bool} {dangling part : List Tree} {given : Block.Index} {plan : Plan}
    (pairs : Pairs config loose fragment.rootTrees blocks dangling)
    (distinct : Distinct fragment.rootTrees)
    (within : Part config blocks fragment.rootTrees given part)
    (compiled : (compile config given part).result = .ok plan) :
    Standalone evaluator config fragment ⟨blocks.reverse⟩ part plan := by
  obtain ⟨tight, few, lost, paired, subset, _⟩ := within.pairs
  have single := within.distinct distinct
  have planned : (planOf config part).result = .ok plan := by
    rw [result_planOf_of_pairs single paired, ← within.compile_eq distinct, compiled]
  refine ⟨⟨⟨plan, config, evaluator, (planOf config part).warnings⟩, ?_, rfl⟩, ⟨few.reverse⟩, ?_,
    find?_of_part pairs distinct paired subset within.sublist⟩
  · rw [result_ofNodes, trees_map_id within.sublist, planned]
    rfl
  · rw [matchBlocks_of_pairs single paired.loosen]

/-- **Compiling is compositional.** In a fragment whose blocks can be matched and that compiles, let
a node be met in some pass. If it starts a block whose step holds a plan, that is the plan of the
body on its own; if it is an element with a plan of its children, that is the plan of the children
on their own. -/
theorem compile_compositional (evaluator : Evaluator) (config : Config) (fragment : Fragment)
    (grown : fragment.Grown) {index : Block.Index} {plan : Plan}
    (matched : (matchBlocks config fragment.rootTrees).result = .ok index)
    (compiled : (compile config index fragment.rootTrees).result = .ok plan)
    {given : Block.Index} {forest : List Tree} {state : Compiling} {parent : Option Tree}
    {node : Tree} (pass : Pass config index fragment.rootTrees given forest)
    (met : Meets config given forest state parent node) :
    (∀ binding, directive? config node = some (.opening binding) → binding.kind.hasPlan = true →
      ∃ block inner step, index.find? node.id = some block ∧ block.binding = binding ∧
        Standalone evaluator config fragment index block.body inner ∧
        stepOf? binding inner = some step ∧
        Emits config given forest state parent node [step]) ∧
    (∀ tag bindings, Scoping config node tag bindings →
      ∃ inner opening, Standalone evaluator config fragment index node.children inner ∧
        Emits config given forest state parent node (guardedBy bindings (opening ++
          (scopedBy bindings (repeatedBy bindings inner) ++ [.literal (tagEnd tag)])))) := by
  obtain ⟨blocks, dangling, pairs, _⟩ := exists_pairs_of_nested grown.leafy
    (nested_of_matchBlocks grown.distinct grown.leafy matched)
  rw [matchBlocks_of_pairs grown.distinct pairs] at matched
  cases matched
  have found : ∀ block ∈ blocks, (⟨blocks.reverse⟩ : Block.Index).find? block.start = some block :=
    fun block member => find?_of_pairs pairs grown.distinct member
  obtain ⟨part, _, succeeds⟩ := pass.part grown.distinct (Part.whole pairs found) compiled
  have member := node_mem_of_asked met.visited
  refine ⟨fun binding opening planned => ?_, fun tag bindings scoping => ?_⟩
  · obtain ⟨block, known, here, same, rfl, within⟩ := part.body grown.distinct member opening
    obtain ⟨inner, step, inside, formed, emits⟩ :=
      emits_of_start succeeds met opening here planned
    exact ⟨block, inner, step, same ▸ found block known, rfl,
      standalone_of_part pairs grown.distinct within inside, formed, emits⟩
  · obtain ⟨inner, opening, inside, emits⟩ := emits_of_scoping succeeds met scoping
    exact ⟨inner, opening,
      standalone_of_part pairs grown.distinct (part.children member) inside, emits⟩

/-- A block in a list: it is met where the children of the list are compiled, and its body compiles
on its own. -/
theorem compile_compositional_list : ∃ fragment index given forest state parent node,
    parse "<ul data-bind=\"foreach: a\"><!-- ko if: b --><li>x</li><!-- /ko --></ul>" =
        .ok fragment ∧
      (matchBlocks {} fragment.rootTrees).result = .ok index ∧
      Pass {} index fragment.rootTrees given forest ∧
      Meets {} given forest state parent node ∧
      directive? {} node = some (.opening ⟨.showIf, "b"⟩) ∧
      ∃ block inner step, index.find? node.id = some block ∧ block.binding = ⟨.showIf, "b"⟩ ∧
        Standalone CommandLine.evaluator {} fragment index block.body inner ∧
        stepOf? ⟨.showIf, "b"⟩ inner = some step ∧
        Emits {} given forest state parent node [step] := by
  let start := Markup.Tree.node 1 (.comment " ko if: b ") []
  let shown := Markup.Tree.node 2 (.element "li" []) [.node 3 (.text "x") []]
  let finish := Markup.Tree.node 4 (.comment " /ko ") []
  let list := Markup.Tree.node 0 (.element "ul" [("data-bind", "foreach: a")])
    [start, shown, finish]
  have read : ((parse "<ul data-bind=\"foreach: a\"><!-- ko if: b --><li>x</li><!-- /ko --></ul>"
      ).toOption.any fun fragment : Fragment => decide (fragment.rootTrees = [list])) = true := by
    decide +kernel
  have sound : (match (matchBlocks {} [list]).result with
      | .ok index => decide (start ∈ visible {} index.blocks [list]) &&
        ((visible {} index.blocks [list]).findSome? (fault? {})).isNone
      | .error _ => false) = true := by
    decide +kernel
  obtain ⟨fragment, parsed, roots⟩ := exists_of_parse_any read
  have grown := grown_of_parse parsed
  rw [← of_decide_eq_true roots] at sound
  split at sound
  · rename_i index matched
    rw [Bool.and_eq_true, Option.isNone_iff_eq_none] at sound
    obtain ⟨inside, quiet⟩ := sound
    have clean : (planOf {} fragment.rootTrees).error? = _ :=
      error?_planOf grown.distinct grown.leafy
    rw [matched] at clean
    obtain ⟨plan, planned⟩ := error?_eq_none.mp (clean.trans quiet)
    obtain ⟨_, same, compiled⟩ := result_bind planned
    rw [matched] at same
    cases same
    have opening : directive? {} start = some (.opening ⟨.showIf, "b"⟩) := by decide
    obtain ⟨given, forest, state, parent, pass, met⟩ := (met_iff_visible_of_matched grown.distinct
      grown.leafy matched compiled (Or.inr ⟨_, opening⟩)).mpr (of_decide_eq_true inside)
    exact ⟨fragment, index, given, forest, state, parent, start, parsed, matched, pass, met, opening,
      (compile_compositional CommandLine.evaluator {} fragment grown matched compiled pass met).1
        _ opening rfl⟩
  · cases sound

end DataBind.Template
