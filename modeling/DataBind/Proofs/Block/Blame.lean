/-
**Which marker is blamed for a missing end marker.**

When an end marker is taken out of a balanced forest, the start marker that its own sibling list
now leaves open stays on the stack while the rest of the forest is matched. The next end marker of
a surrounding block meets it there; without such a block it is found at the end.

* `openAfter?`: the start markers that a sibling list leaves open, by bracket matching;
* `exists_openAfter_of_removed`: without one end marker exactly one start marker is left open;
* `matchSiblings_of_open`: what is left open is what is put on the stack;
* `Blames`: matching stops at a surrounding block, or leaves the start marker on the stack;
* `Removal`: an end marker, its list, and the start marker that the list leaves open without it;
* `Removal.blamed_of_node`, `Removal.blamed_after_node`, `Removal.blamed_of_body` and
  `Removal.blamed_after_block`: one step of the walk up from the list, for a node that is no marker
  and for a block;
* `matchSiblings_of_removed`: the walk through the surrounding blocks up to the roots;
* `matchBlocks_of_balanced`: balanced forests, and the blame without one of their end markers.
-/

import DataBind.Proofs.Block.Matching
import DataBind.Proofs.Markup.Removal

namespace DataBind.Block

open Markup Markup.Tree

variable {config : Config}

/-! ### Open start markers of one sibling list -/

/-- The start markers that are open after some siblings, innermost first, given those open before
them; nothing if an end marker meets none. -/
def openAfter? (config : Config) : List Tree → List Tree → Option (List Tree)
  | stack, [] => some stack
  | stack, sibling :: rest =>
    match directive? config sibling, stack with
    | none, _ => openAfter? config stack rest
    | some (.opening _), _ => openAfter? config (sibling :: stack) rest
    | some .closing, [] => none
    | some .closing, _ :: outer => openAfter? config outer rest

theorem openAfter?_plain {node : Tree} (plain : directive? config node = none)
    (stack rest : List Tree) :
    openAfter? config stack (node :: rest) = openAfter? config stack rest := by
  simp only [openAfter?, plain]

theorem openAfter?_opening {node : Tree} {binding : Binding}
    (opening : directive? config node = some (.opening binding)) (stack rest : List Tree) :
    openAfter? config stack (node :: rest) = openAfter? config (node :: stack) rest := by
  simp only [openAfter?, opening]

theorem openAfter?_closing {node : Tree} (closing : directive? config node = some .closing)
    (innermost : Tree) (outer rest : List Tree) :
    openAfter? config (innermost :: outer) (node :: rest) = openAfter? config outer rest := by
  simp only [openAfter?, closing]

theorem openAfter?_unopened {node : Tree} (closing : directive? config node = some .closing)
    (rest : List Tree) : openAfter? config [] (node :: rest) = none := by
  simp only [openAfter?, closing]

/-- **Balanced siblings close what is open at their depth, and nothing below it.** -/
theorem openAfter?_of_balancedFrom {nodes : List Tree} (stack : List Tree)
    (balanced : balancedFrom config stack.length nodes = true) (more : List Tree) :
    openAfter? config (stack ++ more) nodes = some more := by
  induction nodes generalizing stack with
  | nil =>
    rw [balancedFrom, beq_iff_eq, List.length_eq_zero_iff] at balanced
    rw [balanced, openAfter?, List.nil_append]
  | cons node rest ih =>
    rw [balancedFrom, depthAfter] at balanced
    cases said : directive? config node with
    | none =>
      rw [said] at balanced
      rw [openAfter?_plain said]
      exact ih _ balanced
    | some word =>
      rw [said] at balanced
      cases word with
      | opening binding =>
        rw [openAfter?_opening said]
        exact ih (node :: stack) balanced
      | closing =>
        cases stack with
        | nil => cases balanced
        | cons innermost outer =>
          rw [List.cons_append, openAfter?_closing said]
          exact ih _ balanced

/-- The first part of a balanced list leaves open what the second part closes. -/
theorem exists_openAfter_of_append {first second : List Tree} (stack : List Tree)
    (balanced : balancedFrom config stack.length (first ++ second) = true) :
    ∃ left, openAfter? config stack first = some left ∧
      balancedFrom config left.length second = true := by
  induction first generalizing stack with
  | nil => exact ⟨stack, rfl, balanced⟩
  | cons node rest ih =>
    rw [List.cons_append, balancedFrom, depthAfter] at balanced
    cases said : directive? config node with
    | none =>
      rw [said] at balanced
      rw [openAfter?_plain said]
      exact ih _ balanced
    | some word =>
      rw [said] at balanced
      cases word with
      | opening binding =>
        rw [openAfter?_opening said]
        exact ih (node :: stack) balanced
      | closing =>
        cases stack with
        | nil => cases balanced
        | cons innermost outer =>
          rw [openAfter?_closing said]
          exact ih _ balanced

theorem openAfter?_append {first stack left : List Tree}
    (opened : openAfter? config stack first = some left) (second : List Tree) :
    openAfter? config stack (first ++ second) = openAfter? config left second := by
  induction first generalizing stack with
  | nil =>
    cases opened
    rfl
  | cons node rest ih =>
    rw [List.cons_append]
    cases said : directive? config node with
    | none =>
      rw [openAfter?_plain said] at opened ⊢
      exact ih opened
    | some word =>
      cases word with
      | opening binding =>
        rw [openAfter?_opening said] at opened ⊢
        exact ih opened
      | closing =>
        cases stack with
        | nil =>
          rw [openAfter?_unopened said] at opened
          cases opened
        | cons innermost outer =>
          rw [openAfter?_closing said] at opened ⊢
          exact ih opened

/-- **Without one of its end markers a balanced list leaves one start marker open.** -/
theorem exists_openAfter_of_removed {before after : List Tree} {marker : Tree}
    (balanced : Balanced config (before ++ marker :: after))
    (closing : directive? config marker = some .closing) :
    ∃ start, openAfter? config [] (before ++ after) = some [start] := by
  obtain ⟨left, opened, rest⟩ := exists_openAfter_of_append [] balanced
  rw [balancedFrom, depthAfter, closing] at rest
  cases left with
  | nil => cases rest
  | cons innermost outer =>
    -- the later end markers close all but the outermost of the open blocks
    have split := List.dropLast_append_getLast (List.cons_ne_nil innermost outer)
    have shorter : balancedFrom config (innermost :: outer).dropLast.length after = true := by
      rw [List.length_dropLast]
      exact rest
    have closed := openAfter?_of_balancedFrom _ shorter
      [(innermost :: outer).getLast (List.cons_ne_nil innermost outer)]
    rw [split] at closed
    exact ⟨_, (openAfter?_append opened after).trans closed⟩

/-! ### Numbering does not matter -/

theorem directive?_of_content {first second : Tree} (same : first.content = second.content) :
    directive? config first = directive? config second := by
  rw [directive?, directive?, same]

theorem markerText_of_content {first second : Tree} (same : first.content = second.content) :
    markerText first = markerText second := by
  rw [markerText, markerText, same]

/-- Forests of one shape are nested alike. -/
theorem nestedFrom_of_shapeAll_eq {first second : List Tree}
    (same : shapeAll first = shapeAll second) (loose : Bool) (depth : Nat) :
    nestedFrom config loose depth first = nestedFrom config loose depth second := by
  induction second using forestInduction generalizing first loose depth with
  | nil =>
    rw [shapeAll_eq_map, shapeAll_eq_map, List.map_nil, List.map_eq_nil_iff] at same
    rw [same]
  | cons id content children rest below later =>
    obtain ⟨node, others, rfl, top, tail⟩ := of_shapeAll_eq_cons same
    obtain ⟨said, under⟩ := of_shape_eq top
    rw [nestedFrom, nestedFrom, nestedBelow_eq, nestedBelow_eq, below under, depthAfter, depthAfter,
      directive?_of_content said]
    simp only [Tree.children, later tail]

/-- Forests of one shape leave start markers of one content open. -/
theorem openAfter?_of_shapeAll_eq {first second : List Tree}
    (same : shapeAll first = shapeAll second) (stack other : List Tree) {left : List Tree}
    (alike : stack.map content = other.map content)
    (opened : openAfter? config other second = some left) :
    ∃ also, openAfter? config stack first = some also ∧ also.map content = left.map content := by
  induction second generalizing first stack other with
  | nil =>
    rw [shapeAll_eq_map, shapeAll_eq_map, List.map_nil, List.map_eq_nil_iff] at same
    subst same
    cases opened
    exact ⟨stack, rfl, alike⟩
  | cons node rest ih =>
    obtain ⟨sibling, others, rfl, top, tail⟩ := of_shapeAll_eq_cons same
    have content := (of_shape_eq top).1
    have word : directive? config sibling = directive? config node := directive?_of_content content
    cases said : directive? config node with
    | none =>
      rw [said] at word
      rw [openAfter?_plain said] at opened
      rw [openAfter?_plain word]
      exact ih tail stack other alike opened
    | some marker =>
      rw [said] at word
      cases marker with
      | opening binding =>
        rw [openAfter?_opening said] at opened
        rw [openAfter?_opening word]
        refine ih tail (sibling :: stack) (node :: other) ?_ opened
        rw [List.map_cons, List.map_cons, content, alike]
      | closing =>
        cases other with
        | nil =>
          rw [openAfter?_unopened said] at opened
          cases opened
        | cons innermost outer =>
          cases stack with
          | nil => cases alike
          | cons top inner =>
            rw [List.map_cons, List.map_cons, List.cons.injEq] at alike
            rw [openAfter?_closing said] at opened
            rw [openAfter?_closing word]
            exact ih tail inner outer alike.2 opened

/-! ### Matching with a start marker left open -/

/-- A list is nested if the lists below it are and its own markers match. -/
theorem nestedFrom_iff {depth : Nat} {nodes : List Tree} :
    nestedFrom config false depth nodes = true ↔
      (∀ tree ∈ nodes, nestedBelow config false tree = true) ∧
        balancedFrom config depth nodes = true := by
  induction nodes generalizing depth with
  | nil => simp [nestedFrom, balancedFrom]
  | cons tree rest ih =>
    rw [nestedFrom, balancedFrom, Bool.and_eq_true, List.forall_mem_cons, and_assoc]
    refine and_congr Iff.rfl ?_
    cases depthAfter config depth tree with
    | none => simp
    | some next => exact ih

/-- **What a list leaves open is what matching puts on the stack**, if all below it is nested. -/
theorem matchSiblings_of_open (forest : List Tree) {nodes : List Tree} (leafy : Leafy nodes)
    (nested : ∀ tree ∈ nodes, nestedBelow config false tree = true) (parent : Option Tree)
    (state : Matching) (own : List Unclosed) {outer : List Unclosed} {left : List Tree}
    (opened : openAfter? config (own.map Unclosed.start) nodes = some left)
    (stack : state.unclosed = own ++ outer)
    (mine : ∀ entry ∈ own, entry.parent = parent.map Tree.id) :
    ∃ final kept, matchSiblings config forest parent state nodes = (final, none) ∧
      final.unclosed = kept ++ outer ∧ kept.map Unclosed.start = left ∧
      (∀ entry ∈ kept, entry.parent = parent.map Tree.id) ∧ final.warnings = state.warnings := by
  induction nodes using forestInduction generalizing parent state own outer left with
  | nil =>
    cases opened
    exact ⟨state, own, matchSiblings_nil parent state, stack, rfl, mine, rfl⟩
  | cons id content children rest below later =>
    obtain ⟨under, others⟩ := List.forall_mem_cons.mp nested
    cases said : directive? config (.node id content children) with
    | none =>
      rw [openAfter?_plain said] at opened
      rw [nestedBelow_eq, nestedFrom_iff] at under
      have closed := openAfter?_of_balancedFrom [] under.2 []
      obtain ⟨middle, spare, run, kept, nothing, _, quiet⟩ := below leafy.cons.1 under.1
        (some (.node id content children)) state [] closed stack (by simp)
      rw [List.map_eq_nil_iff] at nothing
      rw [nothing, List.nil_append] at kept
      obtain ⟨final, last, goOn, rest⟩ :=
        later leafy.cons.2 others parent middle own opened kept mine
      rw [quiet] at rest
      refine ⟨final, last, ?_, rest⟩
      rw [matchSiblings_plain said]
      simp only [Tree.children, run, andThen_none, goOn]
    | some word =>
      have leaf := children_of_directive leafy said
      cases word with
      | opening binding =>
        rw [openAfter?_opening said] at opened
        rw [matchSiblings_start said leaf]
        refine later leafy.cons.2 others parent _
          (⟨binding, .node id content children, parent.map Tree.id⟩ :: own) opened
          (by rw [stack]; rfl) fun entry member => ?_
        rcases List.mem_cons.mp member with rfl | old
        · rfl
        · exact mine entry old
      | closing =>
        cases own with
        | nil =>
          rw [List.map_nil, openAfter?_unopened said] at opened
          cases opened
        | cons innermost own =>
          rw [List.map_cons, openAfter?_closing said] at opened
          rw [matchSiblings_finish said leaf stack (mine innermost List.mem_cons_self)]
          exact later leafy.cons.2 others parent _ own opened rfl fun entry member =>
            mine entry (List.mem_cons_of_mem _ member)

/-- Matching a nested list leaves the stack as it was. -/
theorem matchSiblings_of_nested (forest : List Tree) {nodes : List Tree} (leafy : Leafy nodes)
    (nested : Nested config false nodes) (parent : Option Tree) (state : Matching) :
    ∃ final, matchSiblings config forest parent state nodes = (final, none) ∧
      final.unclosed = state.unclosed ∧ final.warnings = state.warnings := by
  obtain ⟨below, balanced⟩ := nestedFrom_iff.mp nested
  obtain ⟨final, kept, run, stack, nothing, _, quiet⟩ := matchSiblings_of_open forest leafy below
    parent state [] (openAfter?_of_balancedFrom [] balanced []) rfl (by simp)
  rw [List.map_eq_nil_iff] at nothing
  rw [nothing, List.nil_append] at stack
  exact ⟨final, run, stack, quiet⟩

/-! ### The start marker that is blamed -/

/-- A node lies in the body of one of the blocks. -/
def Enclosed (blocks : List Block) (owner : Tree) : Prop :=
  ∃ block ∈ blocks, owner.id ∈ idsAll block.body

/-- The stack after matching holds one more start marker, of a list that a node among `nodes` or
below them owns. -/
def Left (nodes : List Tree) (start : Tree) (state : Matching) (result : Matching × Option Tree) :
    Prop :=
  ∃ final entry, result = (final, none) ∧ final.unclosed = entry :: state.unclosed ∧
    entry.start.content = start.content ∧ entry.parent ∈ (idsAll nodes).map some ∧
    final.warnings = state.warnings

/-- Matching has stopped and blames a start marker. -/
def Stopped (start : Tree) (state : Matching) (result : Matching × Option Tree) : Prop :=
  ∃ final node, result = (final, some node) ∧
    final.error = some (.unbalancedBlock (markerText start)) ∧ final.warnings = state.warnings

/-- What matching does without an end marker: it stops if a block encloses the owner of the list,
and leaves the start marker on the stack if none does. -/
def Blames (enclosed : Prop) (nodes : List Tree) (start : Tree) (state : Matching)
    (result : Matching × Option Tree) : Prop :=
  (enclosed → Stopped start state result) ∧ (¬ enclosed → Left nodes start state result)

namespace Blames

variable {enclosed : Prop} {forest nodes : List Tree} {start : Tree} {state : Matching}
  {result : Matching × Option Tree}

/-- After a nested rest matching is still stopped, or the start marker is still on the stack. -/
theorem andThen (blames : Blames enclosed nodes start state result) {rest : List Tree}
    (leafy : Leafy rest) (nested : Nested config false rest) (parent : Option Tree) :
    Blames enclosed (nodes ++ rest) start state
      (Markup.andThen result fun after => matchSiblings config forest parent after rest) := by
  obtain ⟨stopped, left⟩ := blames
  refine ⟨fun inside => ?_, fun outside => ?_⟩
  · obtain ⟨final, node, rfl, error, quiet⟩ := stopped inside
    exact ⟨final, node, rfl, error, quiet⟩
  · obtain ⟨middle, entry, rfl, stack, content, owner, quiet⟩ := left outside
    obtain ⟨final, run, kept, still⟩ := matchSiblings_of_nested forest leafy nested parent middle
    refine ⟨final, entry, ?_, kept.trans stack, content, ?_, still.trans quiet⟩
    · rw [andThen_none, run]
    · rw [idsAll_append, List.map_append]
      exact List.mem_append_left _ owner

/-- Before that, a part of the forest may be passed that leaves the stack as it is. -/
theorem after {middle : Matching} (blames : Blames enclosed nodes start middle result)
    (stack : middle.unclosed = state.unclosed) (quiet : middle.warnings = state.warnings)
    {more : List Tree} (subset : idsAll nodes ⊆ idsAll more) :
    Blames enclosed more start state result := by
  obtain ⟨stopped, left⟩ := blames
  refine ⟨fun inside => ?_, fun outside => ?_⟩
  · obtain ⟨final, node, run, error, still⟩ := stopped inside
    exact ⟨final, node, run, error, still.trans quiet⟩
  · obtain ⟨final, entry, run, kept, content, owner, still⟩ := left outside
    exact ⟨final, entry, run, kept.trans (stack ▸ rfl), content, List.map_subset _ subset owner,
      still.trans quiet⟩

/-- At the end marker of a block around it matching stops in any case, since the start marker on
top of the stack has another owner. -/
theorem stopped {middle rest : List Tree} {top finish : Tree} {binding : Binding}
    {parent : Option Tree}
    (blames : Blames enclosed middle start
      { state with unclosed := ⟨binding, top, parent.map Tree.id⟩ :: state.unclosed } result)
    (apart : (owners parent middle).Nodup) (closing : directive? config finish = some .closing) :
    Stopped start state (Markup.andThen result fun after =>
      matchSiblings config forest parent after (finish :: rest)) := by
  by_cases inside : enclosed
  · obtain ⟨final, node, rfl, error, quiet⟩ := blames.1 inside
    exact ⟨final, node, rfl, error, quiet⟩
  · obtain ⟨final, entry, rfl, stack, content, owner, quiet⟩ := blames.2 inside
    have foreign : entry.parent ≠ parent.map Tree.id := by
      intro equal
      rw [equal] at owner
      exact (List.nodup_cons.mp apart).1 owner
    rw [andThen_none, matchSiblings_unbalanced closing stack foreign]
    exact ⟨_, finish, rfl, by rw [markerText_of_content content], quiet⟩

end Blames

theorem Pairs.nestedBelow {loose : Bool} {nodes dangling : List Tree} {blocks : List Block}
    (pairs : Pairs config loose nodes blocks dangling) (strict : loose = false) :
    ∀ tree ∈ nodes, nestedBelow config false tree = true := by
  have bare : ∀ tree : Tree, tree.children = [] → Block.nestedBelow config false tree = true := by
    intro tree leaf
    rw [nestedBelow_eq, leaf]
    rfl
  induction pairs with
  | nil => exact fun tree member => by cases member
  | other _ children _ below later =>
    refine List.forall_mem_cons.mpr ⟨?_, later strict⟩
    rw [nestedBelow_eq, nestedFrom_iff]
    exact ⟨below strict, children.balanced strict⟩
  | dangling => cases strict
  | block _ leaf _ last _ _ inside later =>
    refine List.forall_mem_cons.mpr ⟨bare _ leaf, List.forall_mem_append.mpr ⟨inside rfl, ?_⟩⟩
    exact List.forall_mem_cons.mpr ⟨bare _ last, later strict⟩

theorem Pairs.nested {loose : Bool} {nodes dangling : List Tree} {blocks : List Block}
    (pairs : Pairs config loose nodes blocks dangling) (strict : loose = false) :
    Nested config false nodes :=
  nestedFrom_iff.mpr ⟨pairs.nestedBelow strict, pairs.balanced strict⟩

theorem Nested.of_shapeAll_eq {first second : List Tree} (nested : Nested config false second)
    (same : shapeAll first = shapeAll second) : Nested config false first :=
  (nestedFrom_of_shapeAll_eq same false 0).trans nested

theorem Pairs.body_subset {loose : Bool} {nodes dangling : List Tree} {blocks : List Block}
    (pairs : Pairs config loose nodes blocks dangling) {block : Block} (member : block ∈ blocks) :
    idsAll block.body ⊆ idsAll nodes := fun _ found =>
  pairs.span_subset member (List.mem_cons_of_mem _ (List.mem_append_left _ found))

/-- The owners of a part of a list of siblings. -/
theorem owners_nodup_of_part {parent : Option Tree} (front : List Tree) {part : List Tree}
    (back : List Tree)
    (distinct : (owners parent (front ++ (part ++ back))).Nodup) : (owners parent part).Nodup := by
  refine List.Nodup.sublist (List.Sublist.cons_cons _ (List.Sublist.map some ?_)) distinct
  rw [idsAll_append, idsAll_append]
  exact List.sublist_append_of_sublist_right (List.sublist_append_left _ _)

/-- **In the list of the removed marker** one start marker stays open. -/
theorem left_of_removed_child (forest : List Tree) {siblings list before after : List Tree}
    {marker start : Tree} (leafy : Leafy siblings) (whole : list = before ++ marker :: after)
    (nested : ∀ tree ∈ list, nestedBelow config false tree = true) (distinct : Distinct list)
    (opened : openAfter? config [] (before ++ after) = some [start])
    (same : shapeAll siblings = shapeAll (removeAll marker.id list))
    (parent : Option Tree) (state : Matching) :
    ∃ final entry, matchSiblings config forest parent state siblings = (final, none) ∧
      final.unclosed = entry :: state.unclosed ∧ entry.start.content = start.content ∧
      entry.parent = parent.map Tree.id ∧ final.warnings = state.warnings := by
  subst whole
  rw [removeAll_of_distinct distinct] at same
  have alike : ∀ tree ∈ siblings, nestedBelow config false tree = true := by
    intro tree member
    have listed : shape tree ∈ shapeAll (before ++ after) := by
      rw [← same, shapeAll_eq_map]
      exact List.mem_map_of_mem member
    rw [shapeAll_eq_map] at listed
    obtain ⟨other, found, equal⟩ := List.mem_map.mp listed
    have kept : before ++ after ⊆ before ++ marker :: after :=
      ((List.sublist_cons_self marker after).append_left before).subset
    have under := nested other (kept found)
    rw [nestedBelow_eq] at under ⊢
    exact (nestedFrom_of_shapeAll_eq (of_shape_eq equal).2.symm false 0).trans under
  obtain ⟨left, remaining, contents⟩ :=
    openAfter?_of_shapeAll_eq same [] [] rfl opened
  obtain ⟨final, kept, run, stack, starts, owner, quiet⟩ := matchSiblings_of_open
    forest leafy alike parent state [] remaining rfl (by simp)
  rw [← starts, List.map_map] at contents
  obtain ⟨entry, rfl, content⟩ := List.map_eq_singleton_iff.mp contents
  exact ⟨final, entry, run, stack, content, owner entry List.mem_cons_self, quiet⟩

/-- The children of the owner of the removed marker. -/
theorem blames_of_owner (forest : List Tree) {blocks : List Block}
    {dangling before after : List Tree} {owner marker start top : Tree}
    (pairs : Pairs config false owner.children blocks dangling)
    (list : owner.children = before ++ marker :: after) (distinct : Distinct owner.children)
    (notBelow : owner.id ∉ idsAll owner.children)
    (opened : openAfter? config [] (before ++ after) = some [start]) (leafy : Leafy top.children)
    (same : shapeAll top.children = shapeAll (removeAll marker.id owner.children))
    (state : Matching) :
    Blames (Enclosed blocks owner) [top] start state
      (matchSiblings config forest (some top) state top.children) := by
  refine ⟨fun ⟨block, member, enclosed⟩ => absurd (pairs.body_subset member enclosed) notBelow,
    fun _ => ?_⟩
  obtain ⟨final, entry, run, stack, named, parented, quiet⟩ := left_of_removed_child
    forest leafy list (pairs.nestedBelow rfl) distinct opened same (some top) state
  refine ⟨final, entry, run, stack, named, ?_, quiet⟩
  rw [parented, idsAll_cons]
  exact List.mem_cons_self

/-- Only blocks around a part of the forest can enclose a node there. -/
theorem enclosed_iff_of_subset {few all : List Block} (nodes : List Tree) {owner : Tree}
    (inside : owner ∈ subtreesAll nodes) (subset : few ⊆ all)
    (others : ∀ block ∈ all, block ∈ few ∨ List.Disjoint (idsAll block.body) (idsAll nodes)) :
    Enclosed all owner ↔ Enclosed few owner := by
  refine ⟨fun ⟨block, member, found⟩ => ?_, fun ⟨block, member, found⟩ =>
    ⟨block, subset member, found⟩⟩
  rcases others block member with near | far
  · exact ⟨block, near, found⟩
  · exact absurd (id_mem_idsAll inside) (far found)

section Parts

variable {loose : Bool} {node start finish owner : Tree} {rest body dangling : List Tree}
  {below inner blocks : List Block}

/-- The blocks among the later siblings of a node enclose nothing in it. -/
theorem enclosed_first_iff (distinct : Distinct (node :: rest))
    (others : Pairs config loose rest blocks dangling) (here : owner ∈ subtreesAll [node]) :
    Enclosed (below ++ blocks) owner ↔ Enclosed below owner := by
  obtain ⟨_, notLater, _, _, disjoint⟩ := distinct.cons
  refine enclosed_iff_of_subset [node] here (List.subset_append_left _ _) fun block member =>
    (List.mem_append.mp member).imp_right fun late id inBody inNode => ?_
  have inRest := others.body_subset late inBody
  rw [idsAll_cons, idsAll_nil, List.append_nil] at inNode
  rcases List.mem_cons.mp inNode with rfl | inChildren
  · exact notLater inRest
  · exact disjoint inChildren inRest

/-- The blocks below a node enclose nothing among its later siblings. -/
theorem enclosed_rest_iff (distinct : Distinct (node :: rest))
    (children : Pairs config loose node.children below dangling)
    (there : owner ∈ subtreesAll rest) :
    Enclosed (below ++ blocks) owner ↔ Enclosed blocks owner := by
  obtain ⟨_, _, _, _, disjoint⟩ := distinct.cons
  exact enclosed_iff_of_subset rest there (List.subset_append_right _ _) fun block member =>
    (List.mem_append.mp member).symm.imp_right fun early id inBody inRest =>
      disjoint (children.body_subset early inBody) inRest

/-- A block and the blocks in it enclose nothing after it. -/
theorem enclosed_after_iff {binding : Binding}
    (distinct : Distinct (start :: (body ++ finish :: rest))) (leaf : start.children = [])
    (last : finish.children = []) (pairs : Pairs config loose body inner dangling)
    (there : owner ∈ subtreesAll rest) :
    Enclosed (inner ++ ⟨binding, start.id, finish.id, body⟩ :: blocks) owner ↔
      Enclosed blocks owner := by
  obtain ⟨_, _, _, _, disjoint⟩ := distinct_block distinct leaf last
  have away : ∀ id ∈ idsAll body, id ∉ idsAll rest := fun id early =>
    disjoint (List.mem_cons_of_mem _ (List.mem_append_left _ early))
  refine enclosed_iff_of_subset rest there (fun _ member =>
    List.mem_append_right _ (List.mem_cons_of_mem _ member)) fun block member => ?_
  rcases List.mem_append.mp member with early | late
  · exact Or.inr fun id inBlock => away id (pairs.body_subset early inBlock)
  · rcases List.mem_cons.mp late with rfl | late
    · exact Or.inr away
    · exact Or.inl late

/-- The markers of a block own no list. -/
theorem mem_subtreesAll_of_block (leaf : start.children = []) (last : finish.children = [])
    (inside : owner ∈ subtreesAll (start :: (body ++ finish :: rest)))
    (owns : owner.children ≠ []) : owner ∈ subtreesAll body ∨ owner ∈ subtreesAll rest := by
  rw [subtreesAll_cons, List.mem_cons, leaf, subtreesAll_nil, List.nil_append, subtreesAll_append,
    List.mem_append, subtreesAll_cons, List.mem_cons, last, subtreesAll_nil,
    List.nil_append] at inside
  rcases inside with rfl | inBody | rfl | inRest
  · exact absurd leaf owns
  · exact Or.inl inBody
  · exact absurd last owns
  · exact Or.inr inRest

/-- What has the shape of a block without one of the nodes in it or after it starts with a block. -/
theorem exists_block_of_removed {reduced : List Tree} {id : NodeId} (leaf : start.children = [])
    (last : finish.children = []) (notStart : start.id ≠ id) (notFinish : finish.id ≠ id)
    (same : shapeAll reduced = shapeAll (removeAll id (start :: (body ++ finish :: rest)))) :
    ∃ top middle bottom remaining, reduced = top :: (middle ++ bottom :: remaining) ∧
      top.content = start.content ∧ shapeAll middle = shapeAll (removeAll id body) ∧
      bottom.content = finish.content ∧ shapeAll remaining = shapeAll (removeAll id rest) := by
  have bare : ∀ tree : Tree, tree.children = [] → remove id tree = tree := by
    intro tree childless
    apply remove_of_not_mem
    rw [childless]
    simp
  rw [removeAll_cons notStart, removeAll_append, removeAll_cons notFinish, bare start leaf,
    bare finish last] at same
  obtain ⟨top, siblings, rfl, head, tail⟩ := of_shapeAll_eq_cons same
  obtain ⟨middle, others, rfl, bodyShape, tail⟩ := of_shapeAll_eq_append tail
  obtain ⟨bottom, remaining, rfl, foot, restShape⟩ := of_shapeAll_eq_cons tail
  exact ⟨top, middle, bottom, remaining, rfl, (of_shape_eq head).1, bodyShape,
    (of_shape_eq foot).1, restShape⟩

/-- What has the shape of a node and its siblings without one of the nodes in it or after it starts
with such a node. -/
theorem exists_node_of_removed {reduced : List Tree} {id : NodeId} (other : node.id ≠ id)
    (same : shapeAll reduced = shapeAll (removeAll id (node :: rest))) :
    ∃ top siblings, reduced = top :: siblings ∧ top.content = node.content ∧
      shapeAll top.children = shapeAll (removeAll id node.children) ∧
      shapeAll siblings = shapeAll (removeAll id rest) := by
  rw [removeAll_cons other] at same
  obtain ⟨top, siblings, rfl, head, tail⟩ := of_shapeAll_eq_cons same
  obtain ⟨content, inner⟩ := of_shape_eq head
  rw [content_remove] at content
  rw [children_remove] at inner
  exact ⟨top, siblings, rfl, content, inner, tail⟩

end Parts

/-! ### From the removed marker up to the roots -/

/-- The removal of an end marker from the list it stands in. -/
structure Removal (config : Config) where
  /-- The node whose children are the list. -/
  owner : Tree
  marker : Tree
  /-- The start marker that the list leaves open without the end marker. -/
  start : Tree
  closing : directive? config marker = some .closing
  opened : ∃ before after, owner.children = before ++ marker :: after ∧
    openAfter? config [] (before ++ after) = some [start]

namespace Removal

/-- Without the end marker the start marker is blamed for a part of the forest, in whatever way the
nodes that remain are numbered, and whatever has been matched before. -/
def Blamed (removal : Removal config) (forest nodes : List Tree) (blocks : List Block) : Prop :=
  ∀ reduced, Leafy reduced → shapeAll reduced = shapeAll (removeAll removal.marker.id nodes) →
    ∀ parent, (owners parent reduced).Nodup → ∀ state,
      Blames (Enclosed blocks removal.owner) reduced removal.start state
        (matchSiblings config forest parent state reduced)

theorem mem_children (removal : Removal config) : removal.marker ∈ removal.owner.children := by
  obtain ⟨before, after, list, _⟩ := removal.opened
  rw [list]
  simp

theorem mem_subtreesAll (removal : Removal config) {nodes : List Tree}
    (inside : removal.owner ∈ subtreesAll nodes) : removal.marker ∈ subtreesAll nodes :=
  mem_subtreesAll_of_children inside (mem_subtreesAll_of_mem removal.mem_children)

theorem mem_idsAll (removal : Removal config) {nodes : List Tree}
    (inside : removal.owner ∈ subtreesAll nodes) : removal.marker.id ∈ idsAll nodes :=
  id_mem_idsAll (removal.mem_subtreesAll inside)

/-- A node that owns the list, or has its owner below it, has the marker below it. -/
theorem mem_idsAll_children (removal : Removal config) {node : Tree}
    (here : removal.owner ∈ subtreesAll [node]) : removal.marker.id ∈ idsAll node.children := by
  rw [subtreesAll_cons, subtreesAll_nil, List.append_nil, List.mem_cons] at here
  rcases here with own | deeper
  · exact id_mem_idsAll (mem_subtreesAll_of_mem (own ▸ removal.mem_children))
  · exact removal.mem_idsAll deeper

/-- A node of another kind is not the end marker. -/
theorem id_ne (removal : Removal config) {nodes : List Tree} (distinct : Distinct nodes)
    (inside : removal.owner ∈ subtreesAll nodes) {node : Tree} (member : node ∈ nodes)
    (other : directive? config node ≠ some .closing) : node.id ≠ removal.marker.id := fun equal =>
  other (distinct.eq_of_id (mem_subtreesAll_of_mem member) (removal.mem_subtreesAll inside) equal ▸
    removal.closing)

variable {removal : Removal config} {forest reduced rest body dangling deeper : List Tree}
  {node first last : Tree} {binding : Binding} {under inner blocks : List Block}

/-- **At a node that is no marker**: the list is its own or below it, and what follows the node is
as before. -/
theorem blamed_of_node (plain : directive? config node = none) (distinct : Distinct (node :: rest))
    (children : Pairs config false node.children under deeper)
    (others : Pairs config false rest blocks dangling)
    (here : removal.owner ∈ subtreesAll [node])
    (blamed : removal.owner ∈ subtreesAll node.children →
      removal.Blamed forest node.children under) :
    removal.Blamed forest (node :: rest) (under ++ blocks) := by
  intro reduced leafy same parent apart state
  have early := removal.mem_idsAll_children here
  have inside : removal.owner ∈ subtreesAll (node :: rest) := subtreesAll_append [node] rest ▸
    List.mem_append_left _ here
  have other := removal.id_ne distinct inside List.mem_cons_self (by simp [plain])
  obtain ⟨notBelow, _, distinctBelow, _, disjoint⟩ := distinct.cons
  obtain ⟨top, siblings, rfl, content, inner, tail⟩ := exists_node_of_removed other same
  have child : Blames (Enclosed under removal.owner) [top] removal.start state
      (matchSiblings config forest (some top) state top.children) := by
    rw [subtreesAll_cons, subtreesAll_nil, List.append_nil, List.mem_cons] at here
    rcases here with own | deeper
    · obtain ⟨before, after, list, opened⟩ := removal.opened
      rw [own] at list
      rw [own]
      exact blames_of_owner forest children list distinctBelow notBelow opened leafy.cons.1 inner
        state
    · refine (blamed deeper top.children leafy.cons.1 inner (some top)
        (owners_nodup_cons apart).1 state).after rfl rfl ?_
      rw [idsAll_cons, idsAll_nil, List.append_nil]
      exact List.subset_cons_self _ _
  rw [removeAll_of_not_mem (disjoint early)] at tail
  rw [matchSiblings_plain ((directive?_of_content content).trans plain),
    enclosed_first_iff distinct others here]
  exact child.andThen leafy.cons.2 ((others.nested rfl).of_shapeAll_eq tail) parent

/-- **After a node that is no marker**, whose children are as before. -/
theorem blamed_after_node (plain : directive? config node = none)
    (distinct : Distinct (node :: rest)) (children : Pairs config false node.children under deeper)
    (there : removal.owner ∈ subtreesAll rest) (blamed : removal.Blamed forest rest blocks) :
    removal.Blamed forest (node :: rest) (under ++ blocks) := by
  intro reduced leafy same parent apart state
  have inside : removal.owner ∈ subtreesAll (node :: rest) := subtreesAll_append [node] rest ▸
    List.mem_append_right _ there
  have other := removal.id_ne distinct inside List.mem_cons_self (by simp [plain])
  obtain ⟨_, _, _, _, disjoint⟩ := distinct.cons
  obtain ⟨top, siblings, rfl, content, inner, tail⟩ := exists_node_of_removed other same
  rw [removeAll_of_not_mem fun early => disjoint early (removal.mem_idsAll there)] at inner
  obtain ⟨middle, run, stack, quiet⟩ := matchSiblings_of_nested forest leafy.cons.1
    ((children.nested rfl).of_shapeAll_eq inner) (some top) state
  rw [matchSiblings_plain ((directive?_of_content content).trans plain), run, andThen_none,
    enclosed_rest_iff distinct children there]
  refine (blamed siblings leafy.cons.2 tail parent (owners_nodup_cons apart).2.1 middle).after
    stack quiet ?_
  rw [idsAll_cons]
  exact List.subset_cons_of_subset _ (List.subset_append_right _ _)

/-- What is left of a block and of its siblings, if the list is in it or after it. -/
theorem exists_block (opening : directive? config first = some (.opening binding))
    (leaf : first.children = []) (closing : directive? config last = some .closing)
    (leafLast : last.children = []) (distinct : Distinct (first :: (body ++ last :: rest)))
    (place : removal.owner ∈ subtreesAll body ∨ removal.owner ∈ subtreesAll rest)
    (leafy : Leafy reduced) (same : shapeAll reduced =
      shapeAll (removeAll removal.marker.id (first :: (body ++ last :: rest)))) :
    ∃ top middle bottom remaining, reduced = top :: (middle ++ bottom :: remaining) ∧
      (directive? config top = some (.opening binding) ∧ top.children = []) ∧
      (directive? config bottom = some .closing ∧ bottom.children = []) ∧
      (Leafy middle ∧ shapeAll middle = shapeAll (removeAll removal.marker.id body)) ∧
      Leafy remaining ∧ shapeAll remaining = shapeAll (removeAll removal.marker.id rest) := by
  obtain ⟨_, _, _, ⟨_, alone⟩, disjoint⟩ := distinct_block distinct leaf leafLast
  have inside : removal.owner ∈ subtreesAll (first :: (body ++ last :: rest)) := by
    rw [subtreesAll_cons, subtreesAll_append, subtreesAll_cons]
    simp only [List.mem_cons, List.mem_append]
    tauto
  have notFirst := removal.id_ne distinct inside List.mem_cons_self (by simp [opening])
  -- the end marker of the block is no node of its body, and none after it
  have notLast : last.id ≠ removal.marker.id := by
    intro equal
    rcases place with inBody | inRest
    · exact alone (equal ▸ removal.mem_idsAll inBody)
    · refine disjoint ?_ (removal.mem_idsAll inRest)
      rw [← equal]
      simp
  obtain ⟨top, middle, bottom, remaining, rfl, head, bodyShape, foot, restShape⟩ :=
    exists_block_of_removed leaf leafLast notFirst notLast same
  have topSaid := (directive?_of_content head).trans opening
  have bottomSaid := (directive?_of_content foot).trans closing
  obtain ⟨leafyMiddle, leafyBottom⟩ := leafy.cons.2.append
  exact ⟨top, middle, bottom, remaining, rfl, ⟨topSaid, children_of_directive leafy topSaid⟩,
    ⟨bottomSaid, children_of_directive leafyBottom bottomSaid⟩, ⟨leafyMiddle, bodyShape⟩,
    leafyBottom.cons.2, restShape⟩

/-- **Inside of a block**: matching stops in the body, or at the end marker of the block. -/
theorem blamed_of_body (opening : directive? config first = some (.opening binding))
    (leaf : first.children = []) (closing : directive? config last = some .closing)
    (leafLast : last.children = []) (distinct : Distinct (first :: (body ++ last :: rest)))
    (inBody : removal.owner ∈ subtreesAll body) (blamed : removal.Blamed forest body inner) :
    removal.Blamed forest (first :: (body ++ last :: rest))
      (inner ++ ⟨binding, first.id, last.id, body⟩ :: blocks) := by
  intro reduced leafy same parent apart state
  have enclosed : Enclosed (inner ++ ⟨binding, first.id, last.id, body⟩ :: blocks) removal.owner :=
    ⟨_, List.mem_append_right _ List.mem_cons_self, id_mem_idsAll inBody⟩
  obtain ⟨top, middle, bottom, remaining, rfl, ⟨opens, bare⟩, ⟨closes, _⟩,
    ⟨leafyMiddle, bodyShape⟩, _⟩ :=
    exists_block opening leaf closing leafLast distinct (Or.inl inBody) leafy same
  have apartMiddle : (owners parent middle).Nodup :=
    owners_nodup_of_part [top] (bottom :: remaining) apart
  rw [matchSiblings_start opens bare, matchSiblings_append]
  refine ⟨fun _ => ?_, fun free => absurd enclosed free⟩
  exact (blamed middle leafyMiddle bodyShape parent apartMiddle _).stopped apartMiddle closes

/-- **After a block**, which is as before. -/
theorem blamed_after_block (opening : directive? config first = some (.opening binding))
    (leaf : first.children = []) (closing : directive? config last = some .closing)
    (leafLast : last.children = []) (distinct : Distinct (first :: (body ++ last :: rest)))
    (pairs : Pairs config false body inner []) (inRest : removal.owner ∈ subtreesAll rest)
    (blamed : removal.Blamed forest rest blocks) :
    removal.Blamed forest (first :: (body ++ last :: rest))
      (inner ++ ⟨binding, first.id, last.id, body⟩ :: blocks) := by
  intro reduced leafy same parent apart state
  obtain ⟨top, middle, bottom, remaining, rfl, ⟨opens, bare⟩, ⟨closes, bareBottom⟩,
    ⟨leafyMiddle, bodyShape⟩, leafyRemaining, restShape⟩ :=
    exists_block opening leaf closing leafLast distinct (Or.inr inRest) leafy same
  have absent : removal.marker.id ∉ idsAll body := fun early =>
    (distinct_block distinct leaf leafLast).2.2.2.2
      (List.mem_cons_of_mem _ (List.mem_append_left _ early)) (removal.mem_idsAll inRest)
  rw [removeAll_of_not_mem absent] at bodyShape
  obtain ⟨ended, run, stack, quiet⟩ := matchSiblings_of_nested forest leafyMiddle
    ((pairs.nested rfl).of_shapeAll_eq bodyShape) parent
    { state with unclosed := ⟨binding, top, parent.map Tree.id⟩ :: state.unclosed }
  have apartRemaining : (owners parent remaining).Nodup := by
    refine owners_nodup_of_part (top :: (middle ++ [bottom])) [] ?_
    simpa using apart
  rw [matchSiblings_start opens bare, matchSiblings_append, run, andThen_none,
    matchSiblings_finish closes bareBottom stack rfl,
    enclosed_after_iff distinct leaf leafLast pairs inRest]
  have blames := blamed remaining leafyRemaining restShape parent apartRemaining
    { ended with
      unclosed := state.unclosed
      index := ended.index.insert
        (closed forest parent ⟨binding, top, parent.map Tree.id⟩ bottom) }
  refine blames.after (Eq.refl state.unclosed) quiet ?_
  rw [idsAll_cons, idsAll_append, idsAll_cons]
  intro id inRemaining
  simp [inRemaining]

end Removal

/-- **From the removed marker up to the roots**: matching stops at the first block around the list
that has lost the marker, or leaves the start marker on the stack. -/
theorem matchSiblings_of_removed (removal : Removal config) (forest : List Tree) {loose : Bool}
    {nodes dangling : List Tree} {blocks : List Block}
    (pairs : Pairs config loose nodes blocks dangling) (strict : loose = false)
    (distinct : Distinct nodes) (inside : removal.owner ∈ subtreesAll nodes) :
    removal.Blamed forest nodes blocks := by
  induction pairs with
  | nil => simp at inside
  | dangling => cases strict
  | @other _ node rest _ _ _ _ plain children others below later =>
    subst strict
    obtain ⟨_, _, distinctBelow, distinctLater, _⟩ := distinct.cons
    rcases List.mem_append.mp (subtreesAll_append [node] rest ▸ inside) with here | there
    · exact Removal.blamed_of_node plain distinct children others here (below rfl distinctBelow)
    · exact Removal.blamed_after_node plain distinct children there
        (later rfl distinctLater there)
  | block opening leaf closing leafLast pairs _ within later =>
    subst strict
    obtain ⟨_, distinctBody, distinctRest, _⟩ := distinct_block distinct leaf leafLast
    -- neither marker of the block owns the list
    rcases mem_subtreesAll_of_block leaf leafLast inside (List.ne_nil_of_mem removal.mem_children)
      with inBody | inRest
    · exact Removal.blamed_of_body opening leaf closing leafLast distinct inBody
        (within rfl distinctBody inBody)
    · exact Removal.blamed_after_block opening leaf closing leafLast distinct pairs inRest
        (later rfl distinctRest inRest)

/-! ### Balanced forests -/

theorem Pairs.loosen {loose : Bool} {nodes dangling : List Tree} {blocks : List Block}
    (pairs : Pairs config loose nodes blocks dangling) :
    Pairs config true nodes blocks dangling := by
  induction pairs with
  | nil => exact .nil true
  | other plain _ _ below later => exact .other plain below later
  | dangling closing leaf _ later => exact .dangling closing leaf later
  | block opening leaf closing last pairs _ _ later =>
    exact .block opening leaf closing last pairs later

/-- A forest is nested if every sibling list in it is balanced. -/
theorem nested_of_levels {nodes : List Tree}
    (balanced : ∀ level ∈ levels nodes, Balanced config level) : Nested config false nodes := by
  refine nestedFrom_iff.mpr ⟨?_, balanced nodes List.mem_cons_self⟩
  have owned : ∀ tree ∈ subtreesAll nodes, Balanced config tree.children := fun tree inside =>
    balanced tree.children (mem_levels.mpr (Or.inr ⟨tree, inside, rfl⟩))
  clear balanced
  induction nodes using forestInduction with
  | nil => exact fun tree member => by cases member
  | cons id content children rest below later =>
    simp only [subtreesAll_cons, List.mem_cons, List.mem_append] at owned
    refine List.forall_mem_cons.mpr
      ⟨?_, later fun tree inside => owned tree (Or.inr (Or.inr inside))⟩
    rw [nestedBelow_eq, nestedFrom_iff]
    exact ⟨below fun tree inside => owned tree (Or.inr (Or.inl inside)), owned _ (Or.inl rfl)⟩

/-- A start marker that stopped the matching is blamed for an unbalanced block. -/
theorem matchBlocks_of_stopped {nodes : List Tree} {start : Tree}
    (stopped : Stopped start .start (matchSiblings config nodes none .start nodes)) :
    matchBlocks config nodes = ⟨[], .error (.unbalancedBlock (markerText start))⟩ := by
  obtain ⟨final, node, run, error, quiet⟩ := stopped
  rw [matchBlocks_eq, run]
  simp only [error, quiet]
  rfl

/-- A start marker left on the stack is blamed for an unclosed block. -/
theorem matchBlocks_of_left {nodes : List Tree} (leafy : Leafy nodes) {start : Tree}
    {final : Matching} {entry : Unclosed}
    (run : matchSiblings config nodes none .start nodes = (final, none))
    (stack : final.unclosed = [entry]) (named : entry.start.content = start.content)
    (quiet : final.warnings = []) :
    matchBlocks config nodes = ⟨[], .error (.unclosedBlock (markerText start))⟩ := by
  have clean : (matchSiblings config nodes none .start nodes).1.error.isSome =
      (matchSiblings config nodes none .start nodes).2.isSome :=
    isSome_error_matchSiblings leafy none rfl
  rw [run] at clean
  simp only [Option.isSome_none, Option.isSome_eq_false_iff, Option.isNone_iff_eq_none] at clean
  rw [matchBlocks_eq, run]
  simp only [clean, stack, quiet, markerText_of_content named]

/-- **Balanced forests, and the blame without one of their end markers.** In a fragment whose
sibling lists are all balanced the blocks are those of bracket matching. Once an end marker is
taken out, in whatever way the nodes that remain are numbered, the start marker that its list now
leaves open is blamed: for an unbalanced block if a block encloses the owner of the list, and for
an unclosed one if none does. -/
theorem matchBlocks_of_balanced (config : Config) (fragment : Fragment) (grown : fragment.Grown)
    (balanced : ∀ level ∈ levels fragment.rootTrees, Balanced config level) :
    ∃ index, matchBlocks config fragment.rootTrees = ⟨[], .ok index⟩ ∧
      (∀ block, block ∈ index.blocks ↔
        ∃ level ∈ levels fragment.rootTrees, Stands config level block) ∧
      ∀ (owner : Option Tree) (before : List Tree) (marker : Tree) (after : List Tree),
        (∀ tree ∈ owner, tree ∈ subtreesAll fragment.rootTrees) →
        siblingsOf fragment.rootTrees owner = before ++ marker :: after →
        directive? config marker = some .closing →
        ∃ start, openAfter? config [] (before ++ after) = some [start] ∧
          ∀ reduced : Fragment, reduced.Grown →
            shapeAll reduced.rootTrees = shapeAll (removeAll marker.id fragment.rootTrees) →
            ((∃ tree ∈ owner, Enclosed index.blocks tree) →
              matchBlocks config reduced.rootTrees =
                ⟨[], .error (.unbalancedBlock (markerText start))⟩) ∧
            ((¬ ∃ tree ∈ owner, Enclosed index.blocks tree) →
              matchBlocks config reduced.rootTrees =
                ⟨[], .error (.unclosedBlock (markerText start))⟩) := by
  obtain ⟨blocks, dangling, pairs, strict⟩ :=
    exists_pairs_of_nested grown.leafy (nested_of_levels balanced)
  have given := matchBlocks_of_pairs grown.distinct pairs.loosen
  rw [← pairs.dangling_eq grown.distinct, strict rfl] at given
  have turned : ∀ owner, Enclosed blocks.reverse owner ↔ Enclosed blocks owner := fun owner => by
    simp only [Enclosed, List.mem_reverse]
  refine ⟨⟨blocks.reverse⟩, given, fun block => ?_,
    fun owner before marker after inside list closing => ?_⟩
  · rw [List.mem_reverse]
    exact pairs.mem_iff
  · cases owner with
    | none =>
      have roots : fragment.rootTrees = before ++ marker :: after := list
      have whole := balanced _ List.mem_cons_self
      rw [roots] at whole
      obtain ⟨start, opened⟩ := exists_openAfter_of_removed whole closing
      refine ⟨start, opened, fun reduced others same => ⟨fun ⟨_, impossible, _⟩ => ?_, fun _ => ?_⟩⟩
      · cases impossible
      · obtain ⟨final, entry, run, stack, named, _, quiet⟩ := left_of_removed_child
          reduced.rootTrees others.leafy roots (pairs.nestedBelow rfl) grown.distinct opened same
          none .start
        exact matchBlocks_of_left others.leafy run stack named quiet
    | some tree =>
      have inside := inside tree rfl
      have children : tree.children = before ++ marker :: after := list
      have level := balanced _ (mem_levels.mpr (Or.inr ⟨tree, inside, rfl⟩))
      rw [children] at level
      obtain ⟨start, opened⟩ := exists_openAfter_of_removed level closing
      refine ⟨start, opened, fun reduced others same => ?_⟩
      obtain ⟨stopped, left⟩ := matchSiblings_of_removed
        ⟨tree, marker, start, closing, before, after, children, opened⟩ reduced.rootTrees pairs rfl
        grown.distinct inside reduced.rootTrees others.leafy same none
        (owners_nodup others.distinct) .start
      refine ⟨fun ⟨found, equal, enclosed⟩ => ?_, fun free => ?_⟩
      · cases equal
        exact matchBlocks_of_stopped (stopped ((turned tree).mp enclosed))
      · obtain ⟨final, entry, run, stack, named, _, quiet⟩ := left fun enclosed =>
          free ⟨tree, rfl, (turned tree).mpr enclosed⟩
        exact matchBlocks_of_left others.leafy run stack named quiet

/-- A marker taken out below an element that a block encloses: its start marker is blamed. -/
theorem matchBlocks_of_balanced_enclosed : ∃ whole reduced,
    parse "<!-- hz if: a --><p><!-- ko with: b -->x<!-- /ko --></p><!-- /hz -->" = .ok whole ∧
      parse "<!-- hz if: a --><p><!-- ko with: b -->x</p><!-- /hz -->" = .ok reduced ∧
      (∃ index, matchBlocks {} whole.rootTrees = ⟨[], .ok index⟩) ∧
      matchBlocks {} reduced.rootTrees = ⟨[], .error (.unbalancedBlock "ko with: b")⟩ := by
  let first := Markup.Tree.node 0 (.comment " hz if: a ") []
  let start := Markup.Tree.node 2 (.comment " ko with: b ") []
  let shown := Markup.Tree.node 3 (.text "x") []
  let marker := Markup.Tree.node 4 (.comment " /ko ") []
  let owner := Markup.Tree.node 1 (.element "p" []) [start, shown, marker]
  let last := Markup.Tree.node 5 (.comment " /hz ") []
  have readWhole : (match parse
      "<!-- hz if: a --><p><!-- ko with: b -->x<!-- /ko --></p><!-- /hz -->" with
      | .ok whole => decide (whole.rootTrees = [first, owner, last])
      | .error _ => false) = true := by decide +kernel
  have readReduced : (match parse "<!-- hz if: a --><p><!-- ko with: b -->x</p><!-- /hz -->" with
      | .ok reduced => decide (shapeAll reduced.rootTrees =
          shapeAll (removeAll marker.id [first, owner, last]))
      | .error _ => false) = true := by decide +kernel
  split at readWhole
  · rename_i whole parsed
    split at readReduced
    · rename_i reduced parsedReduced
      have trees := of_decide_eq_true readWhole
      obtain ⟨index, matched, blocks, blame⟩ := matchBlocks_of_balanced {} whole
        (grown_of_parse parsed) (by rw [trees]; decide +kernel)
      rw [trees] at blocks blame
      obtain ⟨left, opened, faults⟩ := blame (some owner) [start, shown] marker []
        (by decide +kernel) rfl (by decide +kernel)
      have named : left = start := by
        have computed : openAfter? {} [] ([start, shown] ++ []) = some [start] := by decide +kernel
        rw [computed] at opened
        cases opened
        rfl
      have enclosed : ∃ tree ∈ some owner, Enclosed index.blocks tree := by
        refine ⟨owner, rfl, ⟨⟨.showIf, "a"⟩, 0, 5, [owner]⟩, (blocks _).mpr ?_, by decide +kernel⟩
        exact ⟨_, List.mem_cons_self, ⟨[], first, last, [], rfl, rfl, rfl, by decide +kernel,
          by decide +kernel⟩, by decide +kernel⟩
      have fault := (faults reduced (grown_of_parse parsedReduced)
        (of_decide_eq_true readReduced)).1 enclosed
      rw [named, show markerText start = "ko with: b" by decide +kernel] at fault
      exact ⟨whole, reduced, parsed, parsedReduced, ⟨index, matched⟩, fault⟩
    · cases readReduced
  · cases readWhole

end DataBind.Block
