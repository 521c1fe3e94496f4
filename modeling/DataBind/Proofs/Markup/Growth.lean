/-
**Fragments grow node by node.**

A fragment is what a series of appends to the empty fragment has made. Its trees are followed
through the appends: a new root comes last, and a new child is grafted under its parent.

* `Grown`: the fragments that appending can make;
* `rootTrees_append`: the trees after an append;
* `exists_trees_cons`: the tree of an id, with the trees of its children below it;
* `Grown.distinct`, `Grown.leafy`: in a grown fragment no id occurs twice, and only elements have
  children;
* `Grown.idsAll_perm`: every node stands in the trees once;
* `grown_of_parse`: markup is read into a grown fragment.
-/

import DataBind.Markup.Parse
import DataBind.Proofs.Markup.Subtrees
import Mathlib.Data.List.Perm.Subperm

namespace DataBind.Markup

namespace Tree

mutual

/-- The tree with one more last child of the node of an id. -/
def graft (parent : NodeId) (new : Tree) : Tree → Tree
  | .node id content children =>
    .node id content (if id = parent then graftAll parent new children ++ [new]
      else graftAll parent new children)

/-- The forest with one more last child of the node of an id. -/
def graftAll (parent : NodeId) (new : Tree) : List Tree → List Tree
  | [] => []
  | tree :: rest => graft parent new tree :: graftAll parent new rest

end

/-- The forest with one more root, or one more last child of the node of an id. -/
def place (new : Tree) (nodes : List Tree) : Option NodeId → List Tree
  | none => nodes ++ [new]
  | some parent => graftAll parent new nodes

theorem graftAll_eq_map (parent : NodeId) (new : Tree) (nodes : List Tree) :
    graftAll parent new nodes = nodes.map (graft parent new) := by
  induction nodes with
  | nil => rw [graftAll, List.map_nil]
  | cons tree rest ih => rw [graftAll, List.map_cons, ih]

/-- Grafting under an id that does not occur changes nothing. -/
theorem graftAll_of_not_mem {parent : NodeId} {new : Tree} {nodes : List Tree}
    (absent : parent ∉ idsAll nodes) : graftAll parent new nodes = nodes := by
  induction nodes using forestInduction with
  | nil => rw [graftAll]
  | cons id content children rest below later =>
    rw [idsAll_cons, List.mem_cons, List.mem_append, not_or, not_or] at absent
    have other : ¬ id = parent := fun same => absent.1 same.symm
    rw [graftAll, graft, if_neg other, below absent.2.1, later absent.2.2]

/-- **Grafting a leaf adds its id**, if the parent is there once. -/
theorem idsAll_graftAll_perm {parent : NodeId} {new : Tree} (leaf : new.children = [])
    {nodes : List Tree} (distinct : Distinct nodes) (present : parent ∈ idsAll nodes) :
    (idsAll (graftAll parent new nodes)).Perm (new.id :: idsAll nodes) := by
  induction nodes using forestInduction with
  | nil => simp at present
  | cons id content children rest below later =>
    obtain ⟨notBelow, notLater, distinctBelow, distinctLater, apart⟩ := distinct.cons
    rw [idsAll_cons, List.mem_cons, List.mem_append] at present
    rw [graftAll, graft, idsAll_cons, idsAll_cons]
    simp only [Tree.id, Tree.children] at notBelow notLater present ⊢
    -- the parent is the node itself, below it or later; elsewhere nothing is grafted
    rcases present with rfl | inside | inside
    · rw [if_pos rfl, graftAll_of_not_mem notBelow, graftAll_of_not_mem notLater, idsAll_append,
        idsAll_cons, leaf]
      simp only [idsAll_nil, List.append_nil, List.append_assoc, List.singleton_append]
      exact (List.Perm.cons parent List.perm_middle).trans (List.Perm.swap _ _ _)
    · have other : ¬ id = parent := fun same => notBelow (same ▸ inside)
      rw [if_neg other, graftAll_of_not_mem (apart inside)]
      exact (List.Perm.cons id ((below distinctBelow inside).append_right _)).trans
        (List.Perm.swap _ _ _)
    · have other : ¬ id = parent := fun same => notLater (same ▸ inside)
      have elsewhere : parent ∉ idsAll children := fun here => apart here inside
      rw [if_neg other, graftAll_of_not_mem elsewhere]
      have moved := (later distinctLater inside).append_left (idsAll children)
      exact (List.Perm.cons id (moved.trans List.perm_middle)).trans (List.Perm.swap _ _ _)

/-- Grafting a leaf of a new id keeps the ids distinct. -/
theorem Distinct.graftAll {parent : NodeId} {new : Tree} (leaf : new.children = [])
    {nodes : List Tree} (distinct : Distinct nodes) (fresh : new.id ∉ idsAll nodes) :
    Distinct (graftAll parent new nodes) := by
  by_cases present : parent ∈ idsAll nodes
  · unfold Distinct
    rw [(idsAll_graftAll_perm leaf distinct present).nodup_iff, List.nodup_cons]
    exact ⟨fresh, distinct⟩
  · rw [graftAll_of_not_mem present]
    exact distinct

end Tree

namespace Fragment

/-- The fragments that appending can make. -/
inductive Grown : Fragment → Prop
  | empty : Grown .empty
  | append {fragment grown : Fragment} {parent : Option NodeId} {content : Content} :
      Grown fragment → fragment.append parent content = .ok grown → Grown grown

/-- The ids that a fragment mentions are those of its nodes. -/
structure Bounded (fragment : Fragment) : Prop where
  roots : ∀ id ∈ fragment.roots, id < fragment.size
  children : ∀ (id : NodeId) (slot : Slot), fragment.slots[id]? = some slot →
    ∀ child ∈ slot.children, child < fragment.size

/-! ### Trees and slots -/

theorem tree?_eq (fragment : Fragment) (id : NodeId) :
    fragment.tree? id = (fragment.slots[id]?).map fun slot =>
      Tree.node id slot.content (fragment.trees slot.children) := by
  rw [tree?]
  split
  · rename_i found
    rw [found, Option.map_none]
  · rename_i slot found
    rw [found, Option.map_some, trees]
    simp

theorem trees_append (fragment : Fragment) (first second : List NodeId) :
    fragment.trees (first ++ second) = fragment.trees first ++ fragment.trees second := by
  rw [trees, trees, trees, List.filterMap_append]

/-- The children of a node. -/
def childrenOf (fragment : Fragment) (id : NodeId) : List NodeId :=
  ((fragment.slots[id]?).map Slot.children).getD []

theorem trees_cons (fragment : Fragment) (own : NodeId) (rest : List NodeId) :
    fragment.trees (own :: rest) = (fragment.tree? own).toList ++ fragment.trees rest := by
  rw [trees, trees, List.filterMap_cons]
  cases fragment.tree? own <;> rfl

/-- A node stands before its siblings with its children below it. -/
theorem exists_trees_cons {fragment : Fragment} {own : NodeId} (present : own < fragment.size)
    (rest : List NodeId) :
    ∃ node, fragment.trees (own :: rest) = node :: fragment.trees rest ∧ node.id = own ∧
      node.children = fragment.trees (fragment.childrenOf own) := by
  have found : fragment.slots[own]? = some fragment.slots[own] := Array.getElem?_eq_getElem present
  refine ⟨.node own fragment.slots[own].content (fragment.trees fragment.slots[own].children),
    ?_, rfl, ?_⟩
  · rw [trees_cons, tree?_eq, found]
    rfl
  · rw [childrenOf, found]
    rfl

/-- The children of a node are nodes. -/
theorem Bounded.childrenOf {fragment : Fragment} (bounded : fragment.Bounded) (own : NodeId) :
    ∀ child ∈ fragment.childrenOf own, child < fragment.size := by
  intro child member
  unfold Fragment.childrenOf at member
  cases found : fragment.slots[own]? with
  | none =>
    rw [found] at member
    cases member
  | some slot =>
    rw [found] at member
    exact bounded.children own slot found child member

/-- A tree is read off the slot of its id. -/
theorem tree?_eq_some {fragment : Fragment} {id : NodeId} {tree : Tree}
    (found : fragment.tree? id = some tree) :
    tree.id = id ∧ ∃ slot, fragment.slots[id]? = some slot ∧ tree.content = slot.content ∧
      tree.children = fragment.trees slot.children := by
  rw [tree?_eq] at found
  obtain ⟨slot, present, rfl⟩ := Option.map_eq_some_iff.mp found
  exact ⟨rfl, slot, present, rfl, rfl⟩

theorem tree?_of_mem_trees {fragment : Fragment} {ids : List NodeId} {tree : Tree}
    (member : tree ∈ fragment.trees ids) : fragment.tree? tree.id = some tree := by
  obtain ⟨id, _, found⟩ := List.mem_filterMap.mp member
  rw [(tree?_eq_some found).1, found]

/-- **Every tree inside a fragment is read off its slot.** -/
theorem tree?_of_mem_subtreesAll {fragment : Fragment} {nodes : List Tree}
    (members : ∀ top ∈ nodes, fragment.tree? top.id = some top) {tree : Tree}
    (inside : tree ∈ Tree.subtreesAll nodes) : fragment.tree? tree.id = some tree := by
  induction nodes using Tree.forestInduction with
  | nil => simp at inside
  | cons id content children rest below later =>
    have head := members _ List.mem_cons_self
    rw [Tree.subtreesAll_cons, List.mem_cons, List.mem_append] at inside
    rcases inside with rfl | inside | inside
    · exact head
    · obtain ⟨_, slot, _, _, same⟩ := tree?_eq_some head
      simp only [Tree.children] at same
      refine below (fun top member => ?_) inside
      rw [same] at member
      exact tree?_of_mem_trees member
    · exact later (fun top member => members top (List.mem_cons_of_mem _ member)) inside

/-- What holds of every slot holds of every node inside the trees. -/
theorem slot_of_mem_subtreesAll {fragment : Fragment} {ids : List NodeId} {tree : Tree}
    (inside : tree ∈ Tree.subtreesAll (fragment.trees ids)) :
    ∃ slot, fragment.slots[tree.id]? = some slot ∧ tree.content = slot.content ∧
      tree.children = fragment.trees slot.children :=
  (tree?_eq_some (tree?_of_mem_subtreesAll (fun _ member => tree?_of_mem_trees member) inside)).2

theorem id_lt_size_of_mem {fragment : Fragment} {ids : List NodeId} {tree : Tree}
    (inside : tree ∈ Tree.subtreesAll (fragment.trees ids)) : tree.id < fragment.size := by
  obtain ⟨slot, found, _⟩ := slot_of_mem_subtreesAll inside
  exact (Array.getElem?_eq_some_iff.mp found).1

/-! ### Appending -/

/-- What an append can do. -/
theorem append_cases {fragment grown : Fragment} {parent : Option NodeId} {content : Content}
    (appended : fragment.append parent content = .ok grown) :
    (parent = none ∧ grown = fragment.appendRoot content) ∨
      ∃ (id : NodeId) (present : id < fragment.size), parent = some id ∧
        (fragment.slots[Fin.mk id present]).content.isElement = true ∧
        grown = fragment.appendChild id content present := by
  unfold append at appended
  split at appended
  · cases appended
  · cases parent with
    | none =>
      cases appended
      exact Or.inl ⟨rfl, rfl⟩
    | some id =>
      simp only at appended
      split at appended
      · rename_i present
        split at appended
        · rename_i element
          cases appended
          exact Or.inr ⟨id, present, rfl, element, rfl⟩
        · cases appended
      · cases appended

/-- The node that an append adds. -/
def leaf (fragment : Fragment) (content : Content) : Tree :=
  .node fragment.size content []

theorem slots_appendRoot (fragment : Fragment) (content : Content) (id : NodeId) :
    (fragment.appendRoot content).slots[id]? =
      if id = fragment.size then some ⟨content, none, []⟩ else fragment.slots[id]? := by
  rw [appendRoot, Array.getElem?_push]
  rfl

theorem slots_appendChild (fragment : Fragment) (parent : NodeId) (content : Content)
    (present : parent < fragment.size) (id : NodeId) :
    (fragment.appendChild parent content present).slots[id]? =
      if id = fragment.size then some ⟨content, some parent, []⟩
      else (fragment.slots[id]?).map fun slot =>
        if id = parent then { slot with children := slot.children ++ [fragment.size] }
        else slot := by
  rw [appendChild, Array.getElem?_push, Array.size_modify]
  show (if id = fragment.size then _ else _) = _
  by_cases new : id = fragment.size
  · rw [if_pos new, if_pos new]
  · rw [if_neg new, if_neg new, Array.getElem?_modify]
    by_cases same : id = parent
    · subst same
      simp
    · simp [same, Ne.symm same]

@[simp] theorem size_appendRoot (fragment : Fragment) (content : Content) :
    (fragment.appendRoot content).size = fragment.size + 1 := by
  simp [appendRoot, size]

@[simp] theorem size_appendChild (fragment : Fragment) (parent : NodeId) (content : Content)
    (present : parent < fragment.size) :
    (fragment.appendChild parent content present).size = fragment.size + 1 := by
  simp [appendChild, size]

/-- The mentioned ids stay those of nodes. -/
theorem Bounded.append {fragment grown : Fragment} {parent : Option NodeId} {content : Content}
    (bounded : fragment.Bounded) (appended : fragment.append parent content = .ok grown) :
    grown.Bounded := by
  rcases append_cases appended with ⟨_, rfl⟩ | ⟨id, present, _, _, rfl⟩
  · refine ⟨fun root member => ?_, fun id slot found child member => ?_⟩
    · rw [size_appendRoot]
      rcases List.mem_append.mp member with old | new
      · exact Nat.lt_succ_of_lt (bounded.roots root old)
      · rw [List.mem_singleton.mp new]
        exact Nat.lt_succ_self _
    · rw [size_appendRoot]
      rw [slots_appendRoot] at found
      split at found
      · cases found
        cases member
      · exact Nat.lt_succ_of_lt (bounded.children id slot found child member)
  · refine ⟨fun root member => ?_, fun own slot found child member => ?_⟩
    · rw [size_appendChild]
      exact Nat.lt_succ_of_lt (bounded.roots root member)
    · rw [size_appendChild]
      rw [slots_appendChild] at found
      split at found
      · cases found
        cases member
      · obtain ⟨before, old, rfl⟩ := Option.map_eq_some_iff.mp found
        have kept := fun member => Nat.lt_succ_of_lt (bounded.children own before old child member)
        split at member
        · rcases List.mem_append.mp member with old | new
          · exact kept old
          · rw [List.mem_singleton.mp new]
            exact Nat.lt_succ_self _
        · exact kept member

/-- **The slots after an append**: a new one without children, and those before, of which only the
parent has one more child. -/
theorem slot_cases_of_append {fragment grown : Fragment} {parent : Option NodeId}
    {content : Content} (appended : fragment.append parent content = .ok grown) {id : NodeId}
    {slot : Slot} (found : grown.slots[id]? = some slot) :
    (id = fragment.size ∧ slot.content = content ∧ slot.children = []) ∨
      ∃ before, fragment.slots[id]? = some before ∧ slot.content = before.content ∧
        (slot.children = before.children ∨ parent = some id ∧ before.content.isElement = true) := by
  rcases append_cases appended with ⟨_, rfl⟩ | ⟨owner, present, rfl, element, rfl⟩
  · rw [slots_appendRoot] at found
    split at found
    · rename_i new
      cases found
      exact Or.inl ⟨new, rfl, rfl⟩
    · exact Or.inr ⟨slot, found, rfl, Or.inl rfl⟩
  · rw [slots_appendChild] at found
    split at found
    · rename_i new
      cases found
      exact Or.inl ⟨new, rfl, rfl⟩
    · obtain ⟨before, old, rfl⟩ := Option.map_eq_some_iff.mp found
      refine Or.inr ⟨before, old, ?_⟩
      by_cases same : id = owner
      · subst same
        rw [if_pos rfl]
        rw [Array.getElem?_eq_getElem present, Option.some.injEq] at old
        exact ⟨rfl, Or.inr ⟨rfl, old ▸ element⟩⟩
      · rw [if_neg same]
        exact ⟨rfl, Or.inl rfl⟩

/-- The contents before an append stay, and the new one is the last. -/
theorem content_of_append {fragment grown : Fragment} {parent : Option NodeId} {content : Content}
    (appended : fragment.append parent content = .ok grown) (id : NodeId) :
    (grown.slots[id]?).map Slot.content =
      if id = fragment.size then some content else (fragment.slots[id]?).map Slot.content := by
  rcases append_cases appended with ⟨_, rfl⟩ | ⟨owner, present, rfl, _, rfl⟩
  · rw [slots_appendRoot]
    split <;> rfl
  · rw [slots_appendChild]
    split
    · rfl
    · rw [Option.map_map]
      refine congrArg (fun f => (fragment.slots[id]?).map f) ?_
      funext slot
      show (if id = owner then _ else _ : Slot).content = _
      split <;> rfl

/-- A new root leaves the other trees as they are. -/
theorem tree?_appendRoot {fragment : Fragment} (bounded : fragment.Bounded) (content : Content)
    {id : NodeId} (old : id < fragment.size) :
    (fragment.appendRoot content).tree? id = fragment.tree? id := by
  induction left : fragment.size - id using Nat.strongRecOn generalizing id
  rename_i bound ih
  rw [tree?_eq, tree?_eq, slots_appendRoot, if_neg (Nat.ne_of_lt old)]
  refine Option.map_congr fun slot found => ?_
  have below : ∀ child ∈ slot.children,
      (fragment.appendRoot content).tree? child = fragment.tree? child := by
    intro child member
    have later := fragment.ordered id slot found child member
    have inside := bounded.children id slot found child member
    refine ih (fragment.size - child) ?_ inside rfl
    rw [← left]
    exact Nat.sub_lt_sub_left old later
  rw [trees, trees, List.filterMap_congr below]

/-- **A new child is grafted under its parent.** -/
theorem tree?_appendChild {fragment : Fragment} (bounded : fragment.Bounded) {parent : NodeId}
    (content : Content) (present : parent < fragment.size) {id : NodeId}
    (old : id < fragment.size) :
    (fragment.appendChild parent content present).tree? id =
      (fragment.tree? id).map (Tree.graft parent (fragment.leaf content)) := by
  induction left : fragment.size - id using Nat.strongRecOn generalizing id
  rename_i bound ih
  have newest : (fragment.appendChild parent content present).tree? fragment.size =
      some (fragment.leaf content) := by
    rw [tree?_eq, slots_appendChild, if_pos rfl]
    rfl
  rw [tree?_eq, tree?_eq, slots_appendChild, if_neg (Nat.ne_of_lt old), Option.map_map,
    Option.map_map]
  refine Option.map_congr fun slot found => ?_
  have below : ∀ child ∈ slot.children,
      (fragment.appendChild parent content present).tree? child =
        (fragment.tree? child).map (Tree.graft parent (fragment.leaf content)) := by
    intro child member
    have later := fragment.ordered id slot found child member
    have inside := bounded.children id slot found child member
    refine ih (fragment.size - child) ?_ inside rfl
    rw [← left]
    exact Nat.sub_lt_sub_left old later
  have grafted : (fragment.appendChild parent content present).trees slot.children =
      Tree.graftAll parent (fragment.leaf content) (fragment.trees slot.children) := by
    rw [trees, trees, List.filterMap_congr below, Tree.graftAll_eq_map, List.map_filterMap]
  simp only [Function.comp_apply, Tree.graft]
  by_cases same : id = parent
  · rw [if_pos same, if_pos same, trees_append, grafted]
    simp only [trees, List.filterMap_cons, newest, List.filterMap_nil]
  · rw [if_neg same, if_neg same, grafted]

/-- **The trees after an append**: one more at the end, or one more leaf below the parent. -/
theorem rootTrees_append {fragment grown : Fragment} {parent : Option NodeId} {content : Content}
    (bounded : fragment.Bounded) (appended : fragment.append parent content = .ok grown) :
    grown.rootTrees = Tree.place (fragment.leaf content) fragment.rootTrees parent := by
  rcases append_cases appended with ⟨rfl, rfl⟩ | ⟨id, present, rfl, _, rfl⟩
  · have newest : (fragment.appendRoot content).tree? fragment.size =
        some (fragment.leaf content) := by
      rw [tree?_eq, slots_appendRoot, if_pos rfl]
      rfl
    have others := fun root member => tree?_appendRoot bounded content (bounded.roots root member)
    show (fragment.appendRoot content).trees (fragment.roots ++ [fragment.size]) = _
    rw [trees_append, rootTrees, trees, trees, trees, List.filterMap_congr others, Tree.place]
    simp only [List.filterMap_cons, newest, List.filterMap_nil]
  · have grafted := fun root member =>
      tree?_appendChild bounded content present (bounded.roots root member)
    show (fragment.appendChild id content present).trees fragment.roots = _
    rw [trees, List.filterMap_congr grafted, Tree.place, Tree.graftAll_eq_map, rootTrees, trees,
      List.map_filterMap]

/-! ### Grown fragments -/

namespace Grown

variable {fragment : Fragment}

theorem bounded (grown : fragment.Grown) : fragment.Bounded := by
  induction grown with
  | empty =>
    refine ⟨fun _ member => ?_, fun _ _ found => ?_⟩
    · cases member
    · simp [Fragment.empty] at found
  | append _ appended ih => exact ih.append appended

/-- **In a grown fragment no id occurs twice.** -/
theorem distinct (grown : fragment.Grown) : Tree.Distinct fragment.rootTrees := by
  induction grown with
  | empty => exact List.nodup_nil
  | @append fragment _ parent content before appended ih =>
    have fresh : fragment.size ∉ Tree.idsAll fragment.rootTrees := by
      intro member
      obtain ⟨tree, inside, same⟩ := List.mem_map.mp member
      exact Nat.lt_irrefl _ (same ▸ id_lt_size_of_mem inside)
    rw [rootTrees_append before.bounded appended]
    cases parent with
    | none =>
      show (Tree.idsAll (fragment.rootTrees ++ [fragment.leaf content])).Nodup
      rw [Tree.idsAll_append, List.nodup_append']
      refine ⟨ih, by simp [Tree.idsAll_cons, leaf, Tree.children], ?_⟩
      simpa [Tree.idsAll_cons, leaf, Tree.children, Tree.id] using fresh
    | some id => exact ih.graftAll rfl fresh

/-- **Every node of a grown fragment stands in its trees once.** -/
theorem idsAll_perm (grown : fragment.Grown) :
    (Tree.idsAll fragment.rootTrees).Perm (List.range fragment.size) := by
  induction grown with
  | empty => exact List.Perm.refl _
  | @append fragment grown parent content before appended ih =>
    rw [rootTrees_append before.bounded appended, size_append appended, List.range_succ]
    refine List.Perm.trans ?_ (List.perm_append_singleton _ _).symm
    cases parent with
    | none =>
      show (Tree.idsAll (fragment.rootTrees ++ [fragment.leaf content])).Perm _
      rw [Tree.idsAll_append]
      exact (List.perm_append_singleton _ _).trans (ih.cons _)
    | some id =>
      have present : id ∈ Tree.idsAll fragment.rootTrees := by
        rcases append_cases appended with ⟨⟨⟩, _⟩ | ⟨_, inside, ⟨⟩, _, _⟩
        exact ih.mem_iff.mpr (List.mem_range.mpr inside)
      exact (Tree.idsAll_graftAll_perm rfl before.distinct present).trans (ih.cons _)

/-- In a grown fragment only elements have children. -/
theorem leafy (grown : fragment.Grown) : Tree.Leafy fragment.rootTrees := by
  have slots : ∀ (id : NodeId) (slot : Slot), fragment.slots[id]? = some slot →
      slot.content.isElement = false → slot.children = [] := by
    induction grown with
    | empty =>
      intro _ _ found
      simp [Fragment.empty] at found
    | append _ appended ih =>
      intro id slot found plain
      rcases slot_cases_of_append appended found with ⟨_, _, childless⟩ | ⟨before, old, same, kept⟩
      · exact childless
      · rw [same] at plain
        rcases kept with kept | ⟨_, element⟩
        · rw [kept]
          exact ih id before old plain
        · exact absurd (element.symm.trans plain) (by decide)
  intro tree inside plain
  obtain ⟨slot, found, content, children⟩ := slot_of_mem_subtreesAll inside
  rw [content] at plain
  rw [children, slots _ slot found plain]
  rfl

/-- There are ids for all nodes. -/
theorem size_le (grown : fragment.Grown) : fragment.size ≤ capacity := by
  induction grown with
  | empty => exact Nat.zero_le _
  | append _ appended _ =>
    rw [size_append appended]
    unfold Fragment.append at appended
    split at appended
    · cases appended
    · rename_i room
      exact Nat.lt_of_not_le room

/-- The trees do not have more nodes than have been appended. -/
theorem length_le (grown : fragment.Grown) :
    (Tree.subtreesAll fragment.rootTrees).length ≤ fragment.size := by
  have inside : ∀ id ∈ Tree.idsAll fragment.rootTrees, id ∈ List.range fragment.size := by
    intro id member
    obtain ⟨tree, within, rfl⟩ := List.mem_map.mp member
    exact List.mem_range.mpr (id_lt_size_of_mem within)
  have count := (List.Nodup.subperm grown.distinct inside).length_le
  rwa [Tree.idsAll, List.length_map, List.length_range] at count

end Grown

end Fragment

/-! ### Markup -/

namespace Builder

theorem grown_of_append {builder next : Builder} {content : Content}
    (grown : builder.fragment.Grown) (appended : builder.append content = .ok next) :
    next.fragment.Grown := by
  rw [append] at appended
  cases result : builder.fragment.append (builder.unclosed.head?.map Prod.fst) content with
  | error cause =>
    rw [result] at appended
    cases appended
  | ok fragment =>
    rw [result] at appended
    cases appended
    exact .append grown result

/-- Every event keeps the fragment grown. -/
theorem grown_of_add {builder next : Builder} {event : Event} (grown : builder.fragment.Grown)
    (added : builder.add event = .ok next) : next.fragment.Grown := by
  cases event with
  | text _ => exact grown_of_append grown added
  | comment _ => exact grown_of_append grown added
  | declaration _ => exact grown_of_append grown added
  | raw _ _ _ => exact grown_of_append grown added
  | closing tag =>
    cases added
    exact grown
  | opening tag attributes selfClosing =>
    rw [add] at added
    cases result : builder.append (.element tag attributes) with
    | error cause =>
      rw [result] at added
      cases added
    | ok opened =>
      rw [result] at added
      have kept := grown_of_append grown result
      cases added
      split
      · exact kept
      · exact kept

theorem grown_of_foldlM {events : List Event} {builder final : Builder}
    (grown : builder.fragment.Grown) (built : events.foldlM add builder = .ok final) :
    final.fragment.Grown := by
  induction events generalizing builder with
  | nil =>
    cases built
    exact grown
  | cons event rest ih =>
    rw [List.foldlM_cons] at built
    cases result : builder.add event with
    | error cause =>
      rw [result] at built
      cases built
    | ok next =>
      rw [result] at built
      exact ih (grown_of_add grown result) built

end Builder

/-- Markup passes a test of what it is read as only if it is accepted. -/
theorem exists_of_parse_any {markup : String} {test : Fragment → Bool}
    (passes : (parse markup).toOption.any test = true) :
    ∃ fragment, parse markup = .ok fragment ∧ test fragment = true := by
  cases read : parse markup with
  | error cause =>
    rw [read] at passes
    cases passes
  | ok fragment =>
    rw [read] at passes
    exact ⟨fragment, rfl, passes⟩

/-- **Markup is read into a grown fragment.** -/
theorem grown_of_parse {markup : String} {fragment : Fragment}
    (parsed : parse markup = .ok fragment) : fragment.Grown := by
  unfold parse at parsed
  simp only at parsed
  split at parsed
  · cases parsed
  · rename_i builder built
    split at parsed
    · cases parsed
    · cases parsed
      exact Builder.grown_of_foldlM .empty built

end DataBind.Markup
