/-
**A forest without some of its nodes, and forests up to the ids of their nodes.**

* `removeAll`: the forest without the nodes of an id;
* `removeAll_of_not_mem`: without that id the forest stays as it is;
* `removeEach`: the forest without the nodes of several ids, with `removeEach_cons_of_mem` and
  `removeEach_cons_of_not_mem` by recursion over the forest;
* `shape`: a tree without its ids, so that forests of one shape differ in their numbering only.
-/

import DataBind.Proofs.Markup.Subtrees

namespace DataBind.Markup.Tree

mutual

/-- The tree without the nodes of an id below it. -/
def remove (gone : NodeId) : Tree → Tree
  | .node id content children => .node id content (removeAll gone children)

/-- The forest without the nodes of an id. -/
def removeAll (gone : NodeId) : List Tree → List Tree
  | [] => []
  | tree :: rest =>
    if tree.id = gone then removeAll gone rest else remove gone tree :: removeAll gone rest

end

/-- The forest without the nodes of some ids. -/
def removeEach (gone : List NodeId) (nodes : List Tree) : List Tree :=
  gone.foldl (fun left id => removeAll id left) nodes

mutual

/-- The tree with all its ids replaced by zero. -/
def shape : Tree → Tree
  | .node _ content children => .node 0 content (shapeAll children)

/-- The forest with all its ids replaced by zero. -/
def shapeAll : List Tree → List Tree
  | [] => []
  | tree :: rest => shape tree :: shapeAll rest

end

theorem shapeAll_eq_map (nodes : List Tree) : shapeAll nodes = nodes.map shape := by
  induction nodes with
  | nil => rw [shapeAll, List.map_nil]
  | cons tree rest ih => rw [shapeAll, List.map_cons, ih]

theorem shapeAll_append (first second : List Tree) :
    shapeAll (first ++ second) = shapeAll first ++ shapeAll second := by
  rw [shapeAll_eq_map, shapeAll_eq_map, shapeAll_eq_map, List.map_append]

@[simp] theorem content_shape (tree : Tree) : (shape tree).content = tree.content := by
  obtain ⟨id, content, children⟩ := tree
  rw [shape]
  rfl

@[simp] theorem children_shape (tree : Tree) : (shape tree).children = shapeAll tree.children := by
  obtain ⟨id, content, children⟩ := tree
  rw [shape]
  rfl

/-- Trees of one shape have the same content, and children of one shape. -/
theorem of_shape_eq {first second : Tree} (same : shape first = shape second) :
    first.content = second.content ∧ shapeAll first.children = shapeAll second.children := by
  refine ⟨?_, ?_⟩
  · rw [← content_shape first, same, content_shape]
  · rw [← children_shape first, same, children_shape]

/-- A forest of the shape of a tree and a rest consists of such parts. -/
theorem of_shapeAll_eq_cons {nodes rest : List Tree} {tree : Tree}
    (same : shapeAll nodes = shapeAll (tree :: rest)) :
    ∃ first others, nodes = first :: others ∧ shape first = shape tree ∧
      shapeAll others = shapeAll rest := by
  cases nodes with
  | nil => simp [shapeAll] at same
  | cons first others =>
    rw [shapeAll, shapeAll, List.cons.injEq] at same
    exact ⟨first, others, rfl, same⟩

/-- A forest of the shape of two parts consists of such parts. -/
theorem of_shapeAll_eq_append {nodes front back : List Tree}
    (same : shapeAll nodes = shapeAll (front ++ back)) :
    ∃ first second, nodes = first ++ second ∧ shapeAll first = shapeAll front ∧
      shapeAll second = shapeAll back := by
  rw [shapeAll_eq_map, shapeAll_eq_map, List.map_append, List.map_eq_append_iff] at same
  obtain ⟨first, second, split, front, back⟩ := same
  exact ⟨first, second, split, by rw [shapeAll_eq_map, front, shapeAll_eq_map],
    by rw [shapeAll_eq_map, back, shapeAll_eq_map]⟩

/-! ### Removal -/

theorem content_remove (gone : NodeId) (tree : Tree) :
    (remove gone tree).content = tree.content := by
  obtain ⟨id, content, children⟩ := tree
  rw [remove]
  rfl

theorem children_remove (gone : NodeId) (tree : Tree) :
    (remove gone tree).children = removeAll gone tree.children := by
  obtain ⟨id, content, children⟩ := tree
  rw [remove]
  rfl

theorem removeAll_cons {gone : NodeId} {tree : Tree} (other : tree.id ≠ gone) (rest : List Tree) :
    removeAll gone (tree :: rest) = remove gone tree :: removeAll gone rest := by
  rw [removeAll, if_neg other]

theorem removeAll_append (gone : NodeId) (first second : List Tree) :
    removeAll gone (first ++ second) = removeAll gone first ++ removeAll gone second := by
  induction first with
  | nil => rw [removeAll, List.nil_append, List.nil_append]
  | cons tree rest ih =>
    rw [List.cons_append, removeAll, removeAll, ih]
    split <;> rfl

/-- **Removing an id that does not occur changes nothing.** -/
theorem removeAll_of_not_mem {gone : NodeId} {nodes : List Tree} (absent : gone ∉ idsAll nodes) :
    removeAll gone nodes = nodes := by
  induction nodes using forestInduction with
  | nil => rw [removeAll]
  | cons id content children rest below later =>
    rw [idsAll_cons, List.mem_cons, List.mem_append, not_or, not_or] at absent
    have other : (Tree.node id content children).id ≠ gone := fun same => absent.1 same.symm
    rw [removeAll_cons other, remove, below absent.2.1, later absent.2.2]

theorem remove_of_not_mem {gone : NodeId} {tree : Tree} (absent : gone ∉ idsAll tree.children) :
    remove gone tree = tree := by
  obtain ⟨id, content, children⟩ := tree
  rw [remove]
  exact congrArg (Tree.node id content) (removeAll_of_not_mem absent)

/-- In a forest of distinct ids only the node itself is removed. -/
theorem removeAll_of_distinct {before after : List Tree} {gone : Tree}
    (distinct : Distinct (before ++ gone :: after)) :
    removeAll gone.id (before ++ gone :: after) = before ++ after := by
  obtain ⟨_, tail, apart⟩ := distinct.append
  have early : gone.id ∉ idsAll before := by
    intro inside
    refine apart inside ?_
    rw [idsAll_cons]
    exact List.mem_cons_self
  rw [removeAll_append, removeAll_of_not_mem early, removeAll, if_pos rfl,
    removeAll_of_not_mem tail.cons.2.1]

theorem id_remove (gone : NodeId) (tree : Tree) : (remove gone tree).id = tree.id := by
  obtain ⟨id, content, children⟩ := tree
  rw [remove]
  rfl

/-! ### Removal of several nodes -/

theorem removeEach_append (gone : List NodeId) (first second : List Tree) :
    removeEach gone (first ++ second) = removeEach gone first ++ removeEach gone second := by
  induction gone generalizing first second with
  | nil => rfl
  | cons id others ih =>
    simp only [removeEach, List.foldl_cons, removeAll_append]
    exact ih _ _

/-- Removing ids that do not occur changes nothing. -/
theorem removeEach_of_not_mem {gone : List NodeId} {nodes : List Tree}
    (absent : ∀ id ∈ gone, id ∉ idsAll nodes) : removeEach gone nodes = nodes := by
  induction gone with
  | nil => rfl
  | cons id others ih =>
    obtain ⟨first, later⟩ := List.forall_mem_cons.mp absent
    rw [removeEach, List.foldl_cons, removeAll_of_not_mem first]
    exact ih later

/-- A node that is removed is gone with all below it. -/
theorem removeEach_cons_of_mem {gone : List NodeId} {tree : Tree} (member : tree.id ∈ gone)
    (rest : List Tree) : removeEach gone (tree :: rest) = removeEach gone rest := by
  induction gone generalizing tree rest with
  | nil => cases member
  | cons id others ih =>
    rw [removeEach, removeEach, List.foldl_cons, List.foldl_cons]
    by_cases same : tree.id = id
    · rw [removeAll, if_pos same]
    · rw [removeAll_cons same]
      have later : (remove id tree).id ∈ others := by
        rw [id_remove]
        exact (List.mem_cons.mp member).resolve_left same
      exact ih later (removeAll id rest)

/-- A node that stays loses what is removed below it. -/
theorem removeEach_cons_of_not_mem {gone : List NodeId} {tree : Tree} (stays : tree.id ∉ gone)
    (rest : List Tree) :
    removeEach gone (tree :: rest) =
      .node tree.id tree.content (removeEach gone tree.children) :: removeEach gone rest := by
  induction gone generalizing tree rest with
  | nil =>
    obtain ⟨id, content, children⟩ := tree
    rfl
  | cons id others ih =>
    rw [List.mem_cons, not_or] at stays
    simp only [removeEach, List.foldl_cons]
    rw [removeAll_cons stays.1]
    have later := @ih (remove id tree) (by rw [id_remove]; exact stays.2) (removeAll id rest)
    rw [id_remove, content_remove, children_remove] at later
    exact later

/-- What is left depends only on which ids of the forest are removed. -/
theorem removeEach_congr {gone others : List NodeId} {nodes : List Tree}
    (same : ∀ id ∈ idsAll nodes, id ∈ gone ↔ id ∈ others) :
    removeEach gone nodes = removeEach others nodes := by
  have none : ∀ ids : List NodeId, removeEach ids [] = [] := fun ids =>
    removeEach_of_not_mem fun _ _ absent => by simp at absent
  induction nodes using forestInduction with
  | nil => rw [none, none]
  | cons id content children rest below later =>
    rw [idsAll_cons, List.forall_mem_cons, List.forall_mem_append] at same
    obtain ⟨here, inside, behind⟩ := same
    by_cases member : id ∈ gone
    · rw [removeEach_cons_of_mem member, removeEach_cons_of_mem (here.mp member), later behind]
    · rw [removeEach_cons_of_not_mem member, removeEach_cons_of_not_mem (mt here.mpr member)]
      simp only [Tree.children]
      rw [below inside, later behind]

/-- The nodes that are left are nodes of the forest, in the same order. -/
theorem subtreesAll_removeAll (gone : NodeId) (nodes : List Tree) :
    (subtreesAll (removeAll gone nodes)).Sublist ((subtreesAll nodes).map (remove gone)) := by
  induction nodes using forestInduction with
  | nil => rw [removeAll, subtreesAll_nil, List.map_nil]
  | cons id content children rest below later =>
    rw [subtreesAll_cons, List.map_cons, List.map_append]
    by_cases same : (Tree.node id content children).id = gone
    · rw [removeAll, if_pos same]
      exact List.Sublist.cons _ (later.trans (List.sublist_append_right _ _))
    · rw [removeAll_cons same, subtreesAll_cons, children_remove]
      exact (below.append later).cons_cons _

/-- Where only elements have children, this holds of what is left. -/
theorem Leafy.removeEach {nodes : List Tree} (leafy : Leafy nodes) (gone : List NodeId) :
    Leafy (removeEach gone nodes) := by
  induction gone generalizing nodes with
  | nil => exact leafy
  | cons id others ih =>
    refine ih fun tree inside plain => ?_
    obtain ⟨original, member, rfl⟩ :=
      List.mem_map.mp ((subtreesAll_removeAll id nodes).subset inside)
    rw [content_remove] at plain
    rw [children_remove, leafy original member plain, removeAll]

theorem length_removeEach_le (gone : List NodeId) (nodes : List Tree) :
    (subtreesAll (removeEach gone nodes)).length ≤ (subtreesAll nodes).length := by
  induction gone generalizing nodes with
  | nil => exact Nat.le_refl _
  | cons id others ih =>
    refine Nat.le_trans (ih (removeAll id nodes)) ?_
    simpa using (subtreesAll_removeAll id nodes).length_le

end DataBind.Markup.Tree
