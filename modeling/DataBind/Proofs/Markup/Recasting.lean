/-
**Forests with other contents.**

A forest can be recast: every node keeps its id and its children, and its content is replaced. What a
walk or a fragment does with the recast forest follows from what it does with the original.

* `recastAll`: the forest whose contents are replaced;
* `Fragment.recast`, `Fragment.trees_recast`: a fragment is recast slot by slot;
* `traverseAll_recastAll`: walking a recast forest is walking the forest with recast visits.
-/

import DataBind.Proofs.Markup.Growth
import DataBind.Proofs.Markup.Traversal

namespace DataBind.Markup

variable {f : Content → Content}

/-! ### Trees -/

namespace Tree

mutual

/-- The tree with all contents replaced. -/
def recast (f : Content → Content) : Tree → Tree
  | .node id content children => .node id (f content) (recastAll f children)

/-- The forest with all contents replaced. -/
def recastAll (f : Content → Content) : List Tree → List Tree
  | [] => []
  | tree :: rest => recast f tree :: recastAll f rest

end

@[simp] theorem id_recast (tree : Tree) : (recast f tree).id = tree.id := by
  obtain ⟨id, content, children⟩ := tree
  rw [recast]
  rfl

@[simp] theorem content_recast (tree : Tree) : (recast f tree).content = f tree.content := by
  obtain ⟨id, content, children⟩ := tree
  rw [recast]
  rfl

@[simp] theorem children_recast (tree : Tree) :
    (recast f tree).children = recastAll f tree.children := by
  obtain ⟨id, content, children⟩ := tree
  rw [recast]
  rfl

theorem recastAll_eq_map (nodes : List Tree) : recastAll f nodes = nodes.map (recast f) := by
  induction nodes with
  | nil => rw [recastAll, List.map_nil]
  | cons tree rest ih => rw [recastAll, List.map_cons, ih]

/-- The trees inside a recast forest are the recast ones. -/
theorem subtreesAll_recastAll (nodes : List Tree) :
    subtreesAll (recastAll f nodes) = (subtreesAll nodes).map (recast f) := by
  induction nodes using forestInduction with
  | nil => rw [recastAll, subtreesAll_nil, List.map_nil]
  | cons id content children rest below later =>
    rw [recastAll, subtreesAll_cons, subtreesAll_cons, children_recast, List.map_cons,
      List.map_append, later]
    exact congrArg (_ :: · ++ _) below

theorem Distinct.recastAll {nodes : List Tree} (distinct : Distinct nodes) :
    Distinct (recastAll f nodes) := by
  have ids : idsAll (Tree.recastAll f nodes) = idsAll nodes := by
    rw [idsAll, subtreesAll_recastAll, List.map_map]
    exact List.map_congr_left fun tree _ => id_recast tree
  rw [Distinct, ids]
  exact distinct

/-- Only elements have children, where elements stay elements. -/
theorem Leafy.recastAll (elements : ∀ content, (f content).isElement = content.isElement)
    {nodes : List Tree} (leafy : Leafy nodes) : Leafy (recastAll f nodes) := by
  intro tree inside plain
  rw [subtreesAll_recastAll] at inside
  obtain ⟨original, member, rfl⟩ := List.mem_map.mp inside
  rw [content_recast, elements] at plain
  rw [children_recast, leafy original member plain, Tree.recastAll]

end Tree

/-! ### Fragments -/

namespace Fragment

/-- The fragment with all contents replaced. -/
def recast (f : Content → Content) (fragment : Fragment) : Fragment where
  slots := fragment.slots.map fun slot => { slot with content := f slot.content }
  roots := fragment.roots
  ordered := by
    intro id slot found child member
    rw [Array.getElem?_map] at found
    obtain ⟨before, present, rfl⟩ := Option.map_eq_some_iff.mp found
    exact fragment.ordered id before present child member

/-- **The trees of a recast fragment** are recast. -/
theorem tree?_recast (fragment : Fragment) (id : NodeId) :
    (fragment.recast f).tree? id = (fragment.tree? id).map (Tree.recast f) := by
  -- children have greater ids than their parents
  induction left : fragment.size - id using Nat.strongRecOn generalizing id
  rename_i bound ih
  have slots : (fragment.recast f).slots[id]? =
      (fragment.slots[id]?).map fun slot => { slot with content := f slot.content } :=
    Array.getElem?_map
  rw [tree?_eq, tree?_eq, slots]
  cases found : fragment.slots[id]? with
  | none => rfl
  | some slot =>
    have present : id < fragment.size := (Array.getElem?_eq_some_iff.mp found).1
    have below : ∀ child ∈ slot.children,
        (fragment.recast f).tree? child = (fragment.tree? child).map (Tree.recast f) :=
      fun child member => by
        have later := fragment.ordered id slot found child member
        exact ih _ (left ▸ Nat.sub_lt_sub_left present later) child rfl
    have same : (fragment.recast f).trees slot.children =
        Tree.recastAll f (fragment.trees slot.children) := by
      rw [trees, trees, Tree.recastAll_eq_map, List.map_filterMap]
      exact List.filterMap_congr below
    simp only [Option.map_some, Tree.recast, same]

theorem trees_recast (fragment : Fragment) (ids : List NodeId) :
    (fragment.recast f).trees ids = Tree.recastAll f (fragment.trees ids) := by
  rw [trees, trees, Tree.recastAll_eq_map, List.map_filterMap]
  exact List.filterMap_congr fun id _ => tree?_recast fragment id

theorem rootTrees_recast (fragment : Fragment) :
    (fragment.recast f).rootTrees = Tree.recastAll f fragment.rootTrees :=
  trees_recast fragment fragment.roots

end Fragment

/-! ### Walks -/

/-- The visit of a recast node. -/
def Visit.recast (f : Content → Content) (visit : Visit) : Visit :=
  ⟨visit.node.recast f, visit.parent.map (Tree.recast f), visit.isOpening⟩

/-- **Walking a recast forest** is walking the forest with recast visits. -/
theorem traverseAll_recastAll {σ : Type} (visitor : σ → Visit → σ × Action) (parent : Option Tree)
    (state : σ) (nodes : List Tree) :
    traverseAll visitor (parent.map (Tree.recast f)) state (Tree.recastAll f nodes) =
      (traverseAll (fun state visit => visitor state (visit.recast f)) parent state nodes).map id
        (Option.map (Tree.recast f)) := by
  induction nodes using Tree.forestInduction generalizing parent state with
  | nil =>
    rw [Tree.recastAll, traverseAll_nil, traverseAll_nil]
    rfl
  | cons own content children rest below later =>
    let node := Tree.node own content children
    let recast := fun (state : σ) (visit : Visit) => visitor state (visit.recast f)
    have visits : ∀ state isOpening, visitor state
        ⟨node.recast f, parent.map (Tree.recast f), isOpening⟩ =
          recast state ⟨node, parent, isOpening⟩ := fun _ _ => rfl
    rw [Tree.recastAll]
    cases opening : recast state ⟨node, parent, true⟩ with
    | mk opened action =>
      have opens := (visits state true).trans opening
      cases action with
      | stop =>
        rw [traverseAll_of_stop opening, traverseAll_of_stop opens]
        rfl
      | skip => rw [traverseAll_of_skip opening, traverseAll_of_skip opens, later]
      | leave =>
        rw [traverseAll_of_leave opening, traverseAll_of_leave opens, visits]
        cases recast opened ⟨node, parent, false⟩ with
        | mk closed last => cases last <;> rfl
      | descend =>
        have under : traverseAll visitor (some (node.recast f)) opened (node.recast f).children =
            (traverseAll recast (some node) opened node.children).map id
              (Option.map (Tree.recast f)) := by
          rw [Tree.children_recast]
          exact below (some node) opened
        rw [traverseAll_of_descend opening, traverseAll_of_descend opens, under]
        cases traverseAll recast (some node) opened node.children with
        | mk inside halted =>
          cases halted with
          | some found => rfl
          | none =>
            simp only [Prod.map_apply, Option.map_none, andThen_none, id, visits]
            cases recast inside ⟨node, parent, false⟩ with
            | mk closed last => cases last <;> first | rfl | exact later parent closed

end DataBind.Markup
