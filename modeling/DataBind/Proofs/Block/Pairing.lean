/-
**The blocks of a nested forest.**

* `Pairs`: a forest, its blocks in the order of their end markers, and the end markers that end
  none, by recursion over siblings, block bodies and children;
* `exists_pairs_of_nested`: every nested forest has its blocks;
* `Stands`: a block as bracket matching finds it in one sibling list;
* `Pairs.mem_iff`: the blocks are exactly those that stand in some sibling list;
* `Pairs.apart`: two blocks are disjoint, or one lies inside the body of the other;
* `Pairs.dangling_eq`: the end markers that end no block, in document order.
-/

import DataBind.Proofs.Block.Brackets

namespace DataBind.Block

open Markup Markup.Tree

variable {config : Config}

/-- A forest with its blocks and its dangling end markers. Only outside of every block, `loose`
allows dangling end markers. -/
inductive Pairs (config : Config) : Bool → List Tree → List Block → List Tree → Prop
  | nil (loose : Bool) : Pairs config loose [] [] []
  | other {loose : Bool} {node : Tree} {rest : List Tree} {below blocks : List Block}
      {deeper dangling : List Tree} :
      directive? config node = none →
      Pairs config loose node.children below deeper →
      Pairs config loose rest blocks dangling →
      Pairs config loose (node :: rest) (below ++ blocks) (deeper ++ dangling)
  | dangling {node : Tree} {rest : List Tree} {blocks : List Block} {dangling : List Tree} :
      directive? config node = some .closing → node.children = [] →
      Pairs config true rest blocks dangling →
      Pairs config true (node :: rest) blocks (node :: dangling)
  | block {loose : Bool} {binding : Binding} {start finish : Tree} {body rest : List Tree}
      {inner blocks : List Block} {dangling : List Tree} :
      directive? config start = some (.opening binding) → start.children = [] →
      directive? config finish = some .closing → finish.children = [] →
      Pairs config false body inner [] →
      Pairs config loose rest blocks dangling →
      Pairs config loose (start :: (body ++ finish :: rest))
        (inner ++ ⟨binding, start.id, finish.id, body⟩ :: blocks) dangling

/-- A marker is no element. -/
theorem isElement_of_directive {node : Tree} {word : Binding.Directive}
    (said : directive? config node = some word) : node.content.isElement = false := by
  obtain ⟨id, content, children⟩ := node
  cases content with
  | element _ _ => cases said
  | _ => rfl

/-- Markers have no children where only elements have. -/
theorem children_of_directive {node : Tree} {rest : List Tree} {word : Binding.Directive}
    (leafy : Leafy (node :: rest)) (said : directive? config node = some word) :
    node.children = [] :=
  leafy.head (isElement_of_directive said)

/-- **Every nested forest has its blocks.** -/
theorem exists_pairs_of_nested {loose : Bool} {nodes : List Tree} (leafy : Leafy nodes)
    (nested : Nested config loose nodes) :
    ∃ blocks dangling, Pairs config loose nodes blocks dangling ∧ (loose = false → dangling = [])
    := by
  induction weight : weightAll nodes using Nat.strongRecOn generalizing loose nodes
  rename_i bound ih
  cases nodes with
  | nil => exact ⟨[], [], .nil loose, fun _ => rfl⟩
  | cons node rest =>
    unfold Nested at nested
    rw [weightAll, weight_eq] at weight
    cases said : directive? config node with
    | none =>
      rw [nestedFrom_plain said, Bool.and_eq_true, beq_self_eq_true, Bool.and_true] at nested
      obtain ⟨below, later⟩ := nested
      obtain ⟨inner, deeper, pairs, strict⟩ :=
        ih (weightAll node.children) (by omega) leafy.cons.1 below rfl
      obtain ⟨blocks, dangling, others, tight⟩ :=
        ih (weightAll rest) (by omega) leafy.cons.2 later rfl
      refine ⟨inner ++ blocks, deeper ++ dangling, .other said pairs others, fun closed => ?_⟩
      rw [strict closed, tight closed]
      rfl
    | some word =>
      have leaf := children_of_directive leafy said
      cases word with
      | opening binding =>
        rw [nestedFrom_opening said leaf] at nested
        obtain ⟨body, finish, after, rfl, closing, inside, _, others⟩ :=
          exists_finish_of_nestedFrom 0 0 nested
        rw [weightAll_append, weightAll, weight_eq] at weight
        obtain ⟨leafyBody, leafyFinish⟩ := leafy.cons.2.append
        obtain ⟨inner, deeper, pairs, strict⟩ :=
          ih (weightAll body) (by omega) leafyBody inside rfl
        obtain ⟨blocks, dangling, afterwards, tight⟩ :=
          ih (weightAll after) (by omega) leafyFinish.cons.2 others rfl
        rw [strict rfl] at pairs
        exact ⟨_, dangling, .block said leaf closing (children_of_directive leafyFinish closing)
          pairs afterwards, tight⟩
      | closing =>
        rw [nestedFrom_dangling said leaf, Bool.and_eq_true] at nested
        obtain ⟨rfl, later⟩ := nested
        obtain ⟨blocks, dangling, others, _⟩ :=
          ih (weightAll rest) (by omega) leafy.cons.2 later rfl
        exact ⟨blocks, node :: dangling, .dangling said leaf others, by simp⟩

/-! ### Where blocks stand -/

/-- A block of a sibling list, as bracket matching finds it. -/
structure Stands (config : Config) (siblings : List Tree) (block : Block) : Prop where
  placed : ∃ before start finish after,
    siblings = before ++ start :: (block.body ++ finish :: after) ∧
      block.start = start.id ∧ block.finish = finish.id ∧
      directive? config start = some (.opening block.binding) ∧
      directive? config finish = some .closing
  balanced : Balanced config block.body

/-- A block of a part of a sibling list is one of the whole. -/
theorem Stands.extend {siblings : List Tree} {block : Block} (stands : Stands config siblings block)
    (before after : List Tree) : Stands config (before ++ (siblings ++ after)) block := by
  obtain ⟨⟨earlier, start, finish, later, rfl, rest⟩, balanced⟩ := stands
  refine ⟨⟨before ++ earlier, start, finish, later ++ after, ?_, rest⟩, balanced⟩
  simp

/-- The sibling lists of a part of a forest are lists of the whole, or the part itself. -/
theorem stands_of_part {block : Block} {part : List Tree} (before after : List Tree)
    (found : ∃ level ∈ levels part, Stands config level block) :
    ∃ level ∈ levels (before ++ (part ++ after)), Stands config level block := by
  obtain ⟨level, here, stands⟩ := found
  rcases mem_levels.mp here with rfl | ⟨tree, inside, rfl⟩
  · exact ⟨_, List.mem_cons_self, stands.extend before after⟩
  · refine ⟨tree.children, mem_levels.mpr (Or.inr ⟨tree, ?_, rfl⟩), stands⟩
    rw [subtreesAll_append, subtreesAll_append]
    exact List.mem_append_right _ (List.mem_append_left _ inside)

namespace Pairs

variable {loose : Bool} {nodes dangling : List Tree} {blocks : List Block} {block : Block}

/-- Without dangling end markers every sibling list is balanced. -/
theorem balanced (pairs : Pairs config loose nodes blocks dangling) (strict : loose = false) :
    Balanced config nodes := by
  unfold Balanced
  induction pairs with
  | nil => rfl
  | other plain _ _ _ later =>
    rw [balancedFrom, depthAfter, plain]
    exact later strict
  | dangling => cases strict
  | @block _ binding start finish body rest _ _ _ opening _ closing _ _ _ inside later =>
    have passed := balancedFrom_append (inside rfl) 1 (finish :: rest)
    rw [balancedFrom, depthAfter, opening]
    rw [balancedFrom, depthAfter, closing] at passed
    exact passed.trans (later strict)

/-- Every block stands in some sibling list. -/
theorem exists_stands (pairs : Pairs config loose nodes blocks dangling) (member : block ∈ blocks) :
    ∃ level ∈ levels nodes, Stands config level block := by
  induction pairs with
  | nil => cases member
  | @other _ node rest _ _ _ _ _ _ _ below later =>
    rcases List.mem_append.mp member with inside | after
    · obtain ⟨level, here, stands⟩ := below inside
      refine ⟨level, mem_levels.mpr (Or.inr ?_), stands⟩
      rw [subtreesAll_cons]
      rcases mem_levels.mp here with rfl | ⟨tree, deeper, rfl⟩
      · exact ⟨node, List.mem_cons_self, rfl⟩
      · exact ⟨tree, List.mem_cons_of_mem _ (List.mem_append_left _ deeper), rfl⟩
    · simpa using stands_of_part [node] [] (later after)
  | @dangling node rest _ _ _ _ _ later => simpa using stands_of_part [node] [] (later member)
  | @block _ binding start finish body rest _ _ _ opening _ closing _ pairs _ inside later =>
    rcases List.mem_append.mp member with within | here
    · simpa using stands_of_part [start] (finish :: rest) (inside within)
    · rcases List.mem_cons.mp here with rfl | after
      · exact ⟨_, List.mem_cons_self,
          ⟨[], start, finish, rest, rfl, rfl, rfl, opening, closing⟩, pairs.balanced rfl⟩
      · simpa using stands_of_part (start :: (body ++ [finish])) [] (later after)

/-- **A start marker among the siblings has its block.** -/
theorem exists_block_of_start (pairs : Pairs config loose nodes blocks dangling)
    {before after : List Tree} {start : Tree} {binding : Binding}
    (split : nodes = before ++ start :: after)
    (opening : directive? config start = some (.opening binding)) :
    ∃ body finish later, splitBlock? config 0 after = some (body, finish, later) ∧
      ⟨binding, start.id, finish.id, body⟩ ∈ blocks := by
  induction pairs generalizing before after with
  | nil => simp at split
  | other plain _ _ _ ih =>
    cases before with
    | nil =>
      obtain ⟨rfl, rfl⟩ := List.cons.inj split
      rw [plain] at opening
      cases opening
    | cons first before =>
      obtain ⟨rfl, rfl⟩ := List.cons.inj split
      obtain ⟨body, finish, later, found, member⟩ := ih rfl
      exact ⟨body, finish, later, found, List.mem_append_right _ member⟩
  | dangling closing _ _ ih =>
    cases before with
    | nil =>
      obtain ⟨rfl, rfl⟩ := List.cons.inj split
      rw [closing] at opening
      cases opening
    | cons first before =>
      obtain ⟨rfl, rfl⟩ := List.cons.inj split
      exact ih rfl
  | @block _ own first last body rest _ _ _ said _ closing _ pairs _ inside outside =>
    cases before with
    | nil =>
      obtain ⟨rfl, rfl⟩ := List.cons.inj split
      rw [said] at opening
      cases opening
      exact ⟨body, last, rest, splitBlock?_of_balanced (pairs.balanced rfl) closing rest,
        List.mem_append_right _ List.mem_cons_self⟩
    | cons other before =>
      obtain ⟨rfl, same⟩ := List.cons.inj split
      -- the marker is in the body, or the end marker of the block, or after it
      rcases List.append_eq_append_iff.mp same with ⟨middle, rfl, tail⟩ | ⟨middle, rfl, tail⟩
      · cases middle with
        | nil =>
          obtain ⟨rfl, rfl⟩ := List.cons.inj tail
          rw [closing] at opening
          cases opening
        | cons finish middle =>
          obtain ⟨rfl, rfl⟩ := List.cons.inj tail
          obtain ⟨body, finish, later, found, member⟩ := outside rfl
          exact ⟨body, finish, later, found,
            List.mem_append_right _ (List.mem_cons_of_mem _ member)⟩
      · cases middle with
        | nil =>
          obtain ⟨rfl, rfl⟩ := List.cons.inj tail
          rw [closing] at opening
          cases opening
        | cons here middle =>
          obtain ⟨rfl, rfl⟩ := List.cons.inj tail
          obtain ⟨body, finish, later, found, member⟩ := inside rfl
          exact ⟨body, finish, later ++ last :: rest, splitBlock?_extend found _,
            List.mem_append_left _ member⟩

theorem of_leaf {tree : Tree} (leaf : tree.children = []) :
    Pairs config true tree.children [] [] := by
  rw [leaf]
  exact .nil true

/-- The children of a node inside the forest are paired by some of its blocks. -/
theorem exists_pairs_children (pairs : Pairs config loose nodes blocks dangling) {tree : Tree}
    (inside : tree ∈ subtreesAll nodes) :
    ∃ (loose : Bool) (below : List Block) (deeper : List Tree),
      Pairs config loose tree.children below deeper ∧ below ⊆ blocks := by
  induction pairs with
  | nil => simp at inside
  | @other _ node rest below blocks _ _ _ children _ under after =>
    rw [subtreesAll_cons, List.mem_cons, List.mem_append] at inside
    rcases inside with rfl | inside | inside
    · exact ⟨_, below, _, children, List.subset_append_left _ _⟩
    · obtain ⟨_, found, _, pairs, subset⟩ := under inside
      exact ⟨_, found, _, pairs, fun _ member => List.mem_append_left _ (subset member)⟩
    · obtain ⟨_, found, _, pairs, subset⟩ := after inside
      exact ⟨_, found, _, pairs, fun _ member => List.mem_append_right _ (subset member)⟩
  | dangling _ leaf _ after =>
    rw [subtreesAll_cons, List.mem_cons, List.mem_append, leaf] at inside
    rcases inside with rfl | inside | inside
    · exact ⟨true, [], [], of_leaf leaf, List.nil_subset _⟩
    · simp at inside
    · exact after inside
  | @block _ _ start finish body rest _ _ _ _ leaf _ last _ _ within after =>
    rw [subtreesAll_cons, List.mem_cons, List.mem_append, leaf, subtreesAll_append,
      List.mem_append, subtreesAll_cons, List.mem_cons, List.mem_append, last] at inside
    rcases inside with rfl | inside | inside | rfl | inside | inside
    · exact ⟨true, [], [], of_leaf leaf, List.nil_subset _⟩
    · simp at inside
    · obtain ⟨_, found, _, pairs, subset⟩ := within inside
      exact ⟨_, found, _, pairs, fun _ member => List.mem_append_left _ (subset member)⟩
    · exact ⟨true, [], [], of_leaf last, List.nil_subset _⟩
    · simp at inside
    · obtain ⟨_, found, _, pairs, subset⟩ := after inside
      exact ⟨_, found, _, pairs, fun _ member =>
        List.mem_append_right _ (List.mem_cons_of_mem _ (subset member))⟩

/-- Every sibling list is paired by some of the blocks. -/
theorem exists_pairs_level (pairs : Pairs config loose nodes blocks dangling) {level : List Tree}
    (here : level ∈ levels nodes) :
    ∃ (loose : Bool) (below : List Block) (deeper : List Tree),
      Pairs config loose level below deeper ∧ below ⊆ blocks := by
  rcases mem_levels.mp here with rfl | ⟨tree, inside, rfl⟩
  · exact ⟨loose, blocks, dangling, pairs, List.Subset.refl _⟩
  · exact pairs.exists_pairs_children inside

/-- Every start marker in the forest has its block. -/
theorem exists_block_of_opening (pairs : Pairs config loose nodes blocks dangling) {start : Tree}
    (inside : start ∈ subtreesAll nodes) {binding : Binding}
    (opening : directive? config start = some (.opening binding)) :
    ∃ block ∈ blocks, block.start = start.id ∧ block.binding = binding := by
  obtain ⟨level, here, member⟩ := exists_level_of_mem_subtreesAll inside
  obtain ⟨_, below, _, part, subset⟩ := pairs.exists_pairs_level here
  obtain ⟨before, after, split⟩ := List.append_of_mem member
  obtain ⟨body, finish, _, _, found⟩ := part.exists_block_of_start split opening
  exact ⟨_, subset found, rfl, rfl⟩

/-- Every block has its start marker in the forest. -/
theorem exists_start (pairs : Pairs config loose nodes blocks dangling) (member : block ∈ blocks) :
    ∃ start ∈ subtreesAll nodes, start.id = block.start ∧
      directive? config start = some (.opening block.binding) := by
  obtain ⟨level, here, ⟨before, start, finish, after, split, startId, _, opening, _⟩, _⟩ :=
    pairs.exists_stands member
  have member : start ∈ level := by
    rw [split]
    exact List.mem_append_right _ List.mem_cons_self
  refine ⟨start, ?_, startId.symm, opening⟩
  rcases mem_levels.mp here with rfl | ⟨tree, inside, rfl⟩
  · exact mem_subtreesAll_of_mem member
  · exact (subtreesAll_children_sublist inside).subset (mem_subtreesAll_of_mem member)

/-- The body of a block is a part of the forest, and paired by some of the blocks. -/
theorem exists_pairs_body (pairs : Pairs config loose nodes blocks dangling)
    (member : block ∈ blocks) :
    ∃ inner, Pairs config false block.body inner [] ∧ inner ⊆ blocks ∧
      (subtreesAll block.body).Sublist (subtreesAll nodes) := by
  induction pairs with
  | nil => cases member
  | other _ _ _ below later =>
    rw [subtreesAll_cons]
    rcases List.mem_append.mp member with inside | after
    · obtain ⟨inner, paired, subset, part⟩ := below inside
      exact ⟨inner, paired, List.subset_append_of_subset_left _ subset,
        .cons _ (List.sublist_append_of_sublist_left part)⟩
    · obtain ⟨inner, paired, subset, part⟩ := later after
      exact ⟨inner, paired, List.subset_append_of_subset_right _ subset,
        .cons _ (List.sublist_append_of_sublist_right part)⟩
  | dangling _ _ _ later =>
    rw [subtreesAll_cons]
    obtain ⟨inner, paired, subset, part⟩ := later member
    exact ⟨inner, paired, subset, .cons _ (List.sublist_append_of_sublist_right part)⟩
  | @block _ _ start finish body rest found _ _ _ leaf _ last paired _ within later =>
    rw [subtreesAll_cons, leaf, subtreesAll_nil, List.nil_append, subtreesAll_append,
      subtreesAll_cons, last, subtreesAll_nil, List.nil_append]
    rcases List.mem_append.mp member with inside | here
    · obtain ⟨inner, paired, subset, part⟩ := within inside
      exact ⟨inner, paired, List.subset_append_of_subset_left _ subset,
        .cons _ (List.sublist_append_of_sublist_left part)⟩
    · rcases List.mem_cons.mp here with rfl | after
      · exact ⟨found, paired, List.subset_append_left _ _,
          .cons _ (List.sublist_append_left _ _)⟩
      · obtain ⟨inner, paired, subset, part⟩ := later after
        exact ⟨inner, paired,
          List.subset_append_of_subset_right _ (List.subset_cons_of_subset _ subset),
          .cons _ (List.sublist_append_of_sublist_right (.cons _ part))⟩

/-- **The blocks are those that bracket matching finds** in some sibling list. -/
theorem mem_iff (pairs : Pairs config loose nodes blocks dangling) :
    block ∈ blocks ↔ ∃ level ∈ levels nodes, Stands config level block := by
  refine ⟨pairs.exists_stands, fun ⟨level, here, stands⟩ => ?_⟩
  obtain ⟨_, found, _, part, subset⟩ := pairs.exists_pairs_level here
  obtain ⟨⟨before, start, finish, after, split, startId, finishId, opening, closing⟩, balanced⟩ :=
    stands
  obtain ⟨body, last, later, same, member⟩ := part.exists_block_of_start split opening
  rw [splitBlock?_of_balanced balanced closing] at same
  cases same
  rw [← startId, ← finishId] at member
  exact subset member

end Pairs

/-! ### Blocks are apart or inside each other -/

/-- The ids of a block's markers and of all that is between them. -/
def span (block : Block) : List NodeId :=
  block.start :: (idsAll block.body ++ [block.finish])

/-- Two blocks share nothing, or one lies inside the body of the other, markers included. -/
def Apart (first second : Block) : Prop :=
  List.Disjoint first.span second.span ∨ first.span ⊆ idsAll second.body ∨
    second.span ⊆ idsAll first.body

theorem Apart.symm {first second : Block} (apart : Apart first second) : Apart second first := by
  rcases apart with disjoint | inside | around
  · exact Or.inl fun _ one two => disjoint two one
  · exact Or.inr (Or.inr inside)
  · exact Or.inr (Or.inl around)

theorem start_mem_span (block : Block) : block.start ∈ block.span :=
  List.mem_cons_self

theorem finish_mem_span (block : Block) : block.finish ∈ block.span := by
  simp [span]

/-- The markers of a block are not in its body. -/
theorem markers_not_mem_body {block : Block} (distinct : block.span.Nodup) :
    block.start ∉ idsAll block.body ∧ block.finish ∉ idsAll block.body := by
  rw [span, List.nodup_cons, List.mem_append, not_or, List.nodup_append'] at distinct
  exact ⟨distinct.1.1, fun inside => distinct.2.2.2 inside (List.mem_singleton_self _)⟩

/-- Two blocks that are apart share neither marker. -/
theorem Apart.markers_ne {first second : Block} (apart : Apart first second)
    (once : first.span.Nodup) (again : second.span.Nodup) :
    first.start ≠ second.start ∧ first.finish ≠ second.finish := by
  rcases apart with disjoint | inside | around
  · exact ⟨fun same => disjoint (start_mem_span first) (same ▸ start_mem_span second),
      fun same => disjoint (finish_mem_span first) (same ▸ finish_mem_span second)⟩
  · exact ⟨fun same => (markers_not_mem_body again).1 (same ▸ inside (start_mem_span first)),
      fun same => (markers_not_mem_body again).2 (same ▸ inside (finish_mem_span first))⟩
  · exact ⟨fun same => (markers_not_mem_body once).1 (same ▸ around (start_mem_span second)),
      fun same => (markers_not_mem_body once).2 (same ▸ around (finish_mem_span second))⟩

/-- A block among siblings is a part of them. -/
theorem idsAll_block (start finish : Tree) (body rest : List Tree) (leaf : start.children = [])
    (last : finish.children = []) :
    idsAll (start :: (body ++ finish :: rest)) =
      start.id :: (idsAll body ++ [finish.id]) ++ idsAll rest := by
  rw [idsAll_cons, idsAll_append, idsAll_cons, leaf, last]
  simp

/-- In a forest that starts with a block, the block, its body and the rest are each without an id
twice; the markers are not in the body, and the block is apart from the rest. -/
theorem distinct_block {start finish : Tree} {body rest : List Tree}
    (distinct : Distinct (start :: (body ++ finish :: rest))) (leaf : start.children = [])
    (last : finish.children = []) :
    (start.id :: (idsAll body ++ [finish.id])).Nodup ∧ Distinct body ∧ Distinct rest ∧
      (start.id ∉ idsAll body ∧ finish.id ∉ idsAll body) ∧
      List.Disjoint (start.id :: (idsAll body ++ [finish.id])) (idsAll rest) := by
  have parts := distinct
  unfold Distinct at parts
  rw [idsAll_block start finish body rest leaf last, List.nodup_append'] at parts
  obtain ⟨span, outer, disjoint⟩ := parts
  have inner := span
  rw [List.nodup_cons, List.mem_append, not_or, List.nodup_append'] at inner
  obtain ⟨⟨first, _⟩, within, _, alone⟩ := inner
  exact ⟨span, within, outer,
    ⟨first, fun inside => alone inside (List.mem_singleton_self _)⟩, disjoint⟩

namespace Pairs

variable {loose : Bool} {nodes dangling : List Tree} {blocks : List Block} {block : Block}

/-- A block lies in its forest. -/
theorem span_subset (pairs : Pairs config loose nodes blocks dangling) (member : block ∈ blocks) :
    block.span ⊆ idsAll nodes := by
  induction pairs with
  | nil => cases member
  | other _ _ _ below later =>
    rw [idsAll_cons]
    rcases List.mem_append.mp member with inside | after
    · exact List.subset_cons_of_subset _ (List.subset_append_of_subset_left _ (below inside))
    · exact List.subset_cons_of_subset _ (List.subset_append_of_subset_right _ (later after))
  | dangling _ _ _ later =>
    rw [idsAll_cons]
    exact List.subset_cons_of_subset _ (List.subset_append_of_subset_right _ (later member))
  | @block _ _ start finish body rest _ _ _ _ leaf _ last _ _ inside later =>
    rw [idsAll_block start finish body rest leaf last]
    rcases List.mem_append.mp member with within | here
    · exact fun id found => List.mem_append_left _
        (List.mem_cons_of_mem _ (List.mem_append_left _ (inside within found)))
    · rcases List.mem_cons.mp here with rfl | after
      · exact List.subset_append_left _ _
      · exact List.subset_append_of_subset_right _ (later after)

/-- No id occurs twice in a block. -/
theorem span_nodup (pairs : Pairs config loose nodes blocks dangling) (distinct : Distinct nodes)
    (member : block ∈ blocks) : block.span.Nodup := by
  induction pairs with
  | nil => cases member
  | other _ _ _ below later =>
    obtain ⟨_, _, inner, outer, _⟩ := distinct.cons
    rcases List.mem_append.mp member with inside | after
    · exact below inner inside
    · exact later outer after
  | dangling _ _ _ later => exact later distinct.cons.2.2.2.1 member
  | @block _ _ start finish body rest _ _ _ _ leaf _ last _ _ inside later =>
    obtain ⟨span, inner, outer, _, _⟩ := distinct_block distinct leaf last
    rcases List.mem_append.mp member with within | here
    · exact inside inner within
    · rcases List.mem_cons.mp here with rfl | after
      · exact span
      · exact later outer after

/-- **Two blocks are disjoint, or one lies inside the body of the other.** -/
theorem apart (pairs : Pairs config loose nodes blocks dangling) (distinct : Distinct nodes) :
    blocks.Pairwise Apart := by
  induction pairs with
  | nil => exact List.Pairwise.nil
  | other _ children others below later =>
    obtain ⟨_, _, inner, outer, disjoint⟩ := distinct.cons
    refine List.pairwise_append.mpr ⟨below inner, later outer, fun first inside second after => ?_⟩
    exact Or.inl fun id one two =>
      disjoint (children.span_subset inside one) (others.span_subset after two)
  | dangling _ _ _ later => exact later distinct.cons.2.2.2.1
  | @block _ _ start finish body rest _ _ _ _ leaf _ last bodyPairs others inside later =>
    obtain ⟨_, within, outer, _, disjoint⟩ := distinct_block distinct leaf last
    refine List.pairwise_append.mpr ⟨inside within, ?_, fun first inner second after => ?_⟩
    · refine List.pairwise_cons.mpr ⟨fun second after => ?_, later outer⟩
      exact Or.inl fun id one two => disjoint one (others.span_subset after two)
    · rcases List.mem_cons.mp after with rfl | after
      · exact Or.inr (Or.inl (bodyPairs.span_subset inner))
      · refine Or.inl fun id one two => disjoint ?_ (others.span_subset after two)
        exact List.mem_cons_of_mem _ (List.mem_append_left _ (bodyPairs.span_subset inner one))

/-- No two blocks share a marker. -/
theorem markers_ne (pairs : Pairs config loose nodes blocks dangling) (distinct : Distinct nodes) :
    blocks.Pairwise fun first second =>
      first.start ≠ second.start ∧ first.finish ≠ second.finish :=
  List.Pairwise.imp_of_mem
    (fun first second apart => Apart.markers_ne apart (pairs.span_nodup distinct first)
      (pairs.span_nodup distinct second))
    (pairs.apart distinct)

end Pairs

/-! ### Dangling end markers -/

/-- Whether a node is an end marker. -/
def isClosing (config : Config) (node : Tree) : Bool :=
  match directive? config node with
  | some .closing => true
  | _ => false

theorem isClosing_iff {node : Tree} :
    isClosing config node = true ↔ directive? config node = some .closing := by
  unfold isClosing
  split <;> simp_all

/-- The end markers in a forest that end none of the blocks, in document order. -/
def unpaired (config : Config) (blocks : List Block) (nodes : List Tree) : List Tree :=
  (subtreesAll nodes).filter fun node =>
    isClosing config node && blocks.all fun block => block.finish != node.id

@[simp] theorem unpaired_nil (blocks : List Block) : unpaired config blocks [] = [] := by
  rw [unpaired, subtreesAll_nil, List.filter_nil]

theorem unpaired_cons (blocks : List Block) (node : Tree) (rest : List Tree) :
    unpaired config blocks (node :: rest) =
      (if isClosing config node && blocks.all (fun block => block.finish != node.id) then [node]
        else []) ++ (unpaired config blocks node.children ++ unpaired config blocks rest) := by
  unfold unpaired
  rw [subtreesAll_cons, List.filter_cons, List.filter_append]
  split <;> rfl

theorem unpaired_append (blocks : List Block) (first second : List Tree) :
    unpaired config blocks (first ++ second) =
      unpaired config blocks first ++ unpaired config blocks second := by
  unfold unpaired
  rw [subtreesAll_append, List.filter_append]

/-- Only the blocks that end in a forest matter for its unpaired end markers. -/
theorem unpaired_eq_of_subset {few all : List Block} {nodes : List Tree} (subset : few ⊆ all)
    (others : ∀ block ∈ all, block ∈ few ∨ block.finish ∉ idsAll nodes) :
    unpaired config all nodes = unpaired config few nodes := by
  refine List.filter_congr fun node inside => ?_
  congr 1
  rw [Bool.eq_iff_iff, List.all_eq_true, List.all_eq_true]
  refine ⟨fun free block member => free block (subset member), fun free block member => ?_⟩
  rcases others block member with near | far
  · exact free block near
  · rw [bne_iff_ne]
    exact fun same => far (same ▸ id_mem_idsAll inside)

theorem unpaired_reverse (blocks : List Block) (nodes : List Tree) :
    unpaired config blocks.reverse nodes = unpaired config blocks nodes :=
  unpaired_eq_of_subset (fun _ member => List.mem_reverse.mpr member) fun _ member =>
    Or.inl (List.mem_reverse.mp member)

namespace Pairs

variable {loose : Bool} {nodes dangling : List Tree} {blocks : List Block} {block : Block}

theorem finish_mem_idsAll (pairs : Pairs config loose nodes blocks dangling)
    (member : block ∈ blocks) : block.finish ∈ idsAll nodes :=
  pairs.span_subset member (finish_mem_span block)

/-- **The dangling end markers are those that end no block**, in document order. -/
theorem dangling_eq (pairs : Pairs config loose nodes blocks dangling)
    (distinct : Distinct nodes) : dangling = unpaired config blocks nodes := by
  induction pairs with
  | nil => rw [unpaired_nil]
  | @other _ node rest below blocks _ _ plain children others under after =>
    obtain ⟨_, _, inner, outer, disjoint⟩ := distinct.cons
    have here : isClosing config node = false := by rw [isClosing, plain]
    have inside : unpaired config (below ++ blocks) node.children =
        unpaired config below node.children := by
      refine unpaired_eq_of_subset (List.subset_append_left _ _) fun _ member => ?_
      exact (List.mem_append.mp member).imp_right fun late found =>
        disjoint found (others.finish_mem_idsAll late)
    have later : unpaired config (below ++ blocks) rest = unpaired config blocks rest := by
      refine unpaired_eq_of_subset (List.subset_append_right _ _) fun _ member => ?_
      exact (List.mem_append.mp member).symm.imp_right fun early found =>
        disjoint (children.finish_mem_idsAll early) found
    rw [unpaired_cons, here, inside, later, ← under inner, ← after outer]
    rfl
  | @dangling node rest blocks _ closing leaf others after =>
    obtain ⟨_, absent, _, outer, _⟩ := distinct.cons
    have free : (blocks.all fun block => block.finish != node.id) = true := by
      rw [List.all_eq_true]
      intro pair member
      rw [bne_iff_ne]
      exact fun same => absent (same ▸ others.finish_mem_idsAll member)
    rw [unpaired_cons, isClosing_iff.mpr closing, free, leaf, unpaired_nil, ← after outer]
    rfl
  | @block _ binding start finish body rest inner blocks _ opening leaf closing last pairs others
      inside later =>
    obtain ⟨_, within, outer, ⟨_, alone⟩, disjoint⟩ := distinct_block distinct leaf last
    have here : isClosing config start = false := by rw [isClosing, opening]
    have ended : ((inner ++ ⟨binding, start.id, finish.id, body⟩ :: blocks).all fun block =>
        block.finish != finish.id) = false := by
      rw [List.all_append, List.all_cons, bne_self_eq_false, Bool.false_and, Bool.and_false]
    have middle : unpaired config (inner ++ ⟨binding, start.id, finish.id, body⟩ :: blocks) body =
        unpaired config inner body := by
      refine unpaired_eq_of_subset (List.subset_append_left _ _) fun _ member => ?_
      refine (List.mem_append.mp member).imp_right fun late found => ?_
      rcases List.mem_cons.mp late with rfl | late
      · exact alone found
      · exact disjoint (List.mem_cons_of_mem _ (List.mem_append_left _ found))
          (others.finish_mem_idsAll late)
    have after : unpaired config (inner ++ ⟨binding, start.id, finish.id, body⟩ :: blocks) rest =
        unpaired config blocks rest := by
      refine unpaired_eq_of_subset (fun _ found =>
        List.mem_append_right _ (List.mem_cons_of_mem _ found)) fun _ member => ?_
      rcases List.mem_append.mp member with early | late
      · exact Or.inr fun found => disjoint (List.mem_cons_of_mem _
          (List.mem_append_left _ (pairs.finish_mem_idsAll early))) found
      · rcases List.mem_cons.mp late with rfl | late
        · exact Or.inr fun found => disjoint
            (List.mem_append_right (start.id :: idsAll body) (List.mem_singleton_self _)) found
        · exact Or.inl late
    rw [unpaired_cons, here, leaf, unpaired_nil, unpaired_append, unpaired_cons, ended, last,
      unpaired_nil, Bool.and_false, middle, after, ← inside within, ← later outer]
    rfl

end Pairs

end DataBind.Block
