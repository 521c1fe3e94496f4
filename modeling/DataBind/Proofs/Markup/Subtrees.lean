/-
**The trees inside a forest.**

* `decideEq`: equality of trees can be decided;
* `subtreesAll`: all trees in a forest in document order, and `idsAll`, their ids;
* `Distinct`, `Leafy`: no id occurs twice, and only elements have children;
* `levels`: the sibling lists of a forest, its own and those below its nodes;
* `forestInduction`: a forest is empty, or a tree whose children are smaller and a smaller rest.
-/

import DataBind.Markup.Fragment
import Mathlib.Data.List.Nodup

namespace DataBind.Markup.Tree

mutual

/-- Equality of trees can be decided. -/
def decideEq : (first second : Tree) → Decidable (first = second)
  | .node id content children, .node other said below =>
    if ids : id = other then
      if contents : content = said then
        match decideEqAll children below with
        | isTrue same => isTrue (by rw [ids, contents, same])
        | isFalse different => isFalse fun equal => different (by cases equal; rfl)
      else isFalse fun equal => contents (by cases equal; rfl)
    else isFalse fun equal => ids (by cases equal; rfl)

/-- Equality of forests can be decided. -/
def decideEqAll : (first second : List Tree) → Decidable (first = second)
  | [], [] => isTrue rfl
  | [], _ :: _ => isFalse fun equal => by cases equal
  | _ :: _, [] => isFalse fun equal => by cases equal
  | tree :: rest, other :: others =>
    match decideEq tree other, decideEqAll rest others with
    | isTrue head, isTrue tail => isTrue (by rw [head, tail])
    | isFalse different, _ => isFalse fun equal => different (by cases equal; rfl)
    | _, isFalse different => isFalse fun equal => different (by cases equal; rfl)

end

instance : DecidableEq Tree :=
  decideEq

mutual

/-- A tree and all trees inside it, in document order. -/
def subtrees : Tree → List Tree
  | .node id content children => .node id content children :: subtreesAll children

/-- All trees inside a forest, in document order. -/
def subtreesAll : List Tree → List Tree
  | [] => []
  | tree :: rest => subtrees tree ++ subtreesAll rest

end

/-- The ids in a forest, in document order. -/
def idsAll (nodes : List Tree) : List NodeId :=
  (subtreesAll nodes).map id

/-- No id occurs twice. -/
def Distinct (nodes : List Tree) : Prop :=
  (idsAll nodes).Nodup

/-- Only elements have children. -/
def Leafy (nodes : List Tree) : Prop :=
  ∀ tree ∈ subtreesAll nodes, tree.content.isElement = false → tree.children = []

/-- The sibling lists of a forest: its own members, and the children of each of its nodes. -/
def levels (nodes : List Tree) : List (List Tree) :=
  nodes :: (subtreesAll nodes).map children

/-- **Induction over a forest**: for a first tree, the children and the rest are smaller. -/
@[elab_as_elim] theorem forestInduction {motive : List Tree → Prop} (nil : motive [])
    (cons : ∀ id content children rest, motive children → motive rest →
      motive (.node id content children :: rest))
    (nodes : List Tree) : motive nodes := by
  induction weight : weightAll nodes using Nat.strongRecOn generalizing nodes
  rename_i bound ih
  cases nodes with
  | nil => exact nil
  | cons tree rest =>
    obtain ⟨id, content, children⟩ := tree
    simp only [weightAll, Tree.weight] at weight
    exact cons id content children rest (ih (weightAll children) (by omega) children rfl)
      (ih (weightAll rest) (by omega) rest rfl)

theorem weightAll_append (first second : List Tree) :
    weightAll (first ++ second) = weightAll first + weightAll second := by
  induction first with
  | nil => rw [List.nil_append, weightAll, Nat.zero_add]
  | cons tree rest ih => rw [List.cons_append, weightAll, weightAll, ih, Nat.add_assoc]

/-- What is below the first tree is lighter than the whole forest. -/
theorem weightAll_children_lt (tree : Tree) (rest : List Tree) :
    weightAll tree.children < weightAll (tree :: rest) := by
  rw [weightAll, weight_eq]
  omega

theorem weightAll_rest_lt (tree : Tree) (rest : List Tree) :
    weightAll rest < weightAll (tree :: rest) := by
  rw [weightAll, weight_eq]
  omega

/-! ### Membership -/

theorem subtrees_eq (tree : Tree) : subtrees tree = tree :: subtreesAll tree.children := by
  obtain ⟨id, content, children⟩ := tree
  rw [subtrees]
  rfl

@[simp] theorem subtreesAll_nil : subtreesAll [] = [] := by
  rw [subtreesAll]

theorem subtreesAll_cons (tree : Tree) (rest : List Tree) :
    subtreesAll (tree :: rest) = tree :: (subtreesAll tree.children ++ subtreesAll rest) := by
  rw [subtreesAll, subtrees_eq, List.cons_append]

theorem subtreesAll_append (first second : List Tree) :
    subtreesAll (first ++ second) = subtreesAll first ++ subtreesAll second := by
  induction first with
  | nil => simp
  | cons tree rest ih =>
    rw [List.cons_append, subtreesAll_cons, subtreesAll_cons, ih]
    simp

theorem mem_subtreesAll_of_mem {tree : Tree} {nodes : List Tree} (member : tree ∈ nodes) :
    tree ∈ subtreesAll nodes := by
  obtain ⟨before, after, rfl⟩ := List.append_of_mem member
  rw [subtreesAll_append, subtreesAll_cons]
  simp

/-- What is below a node of a forest is inside the forest, in the same order. -/
theorem subtreesAll_children_sublist {tree : Tree} {nodes : List Tree}
    (inside : tree ∈ subtreesAll nodes) :
    (subtreesAll tree.children).Sublist (subtreesAll nodes) := by
  induction nodes using forestInduction with
  | nil => simp at inside
  | cons id content children rest below later =>
    rw [subtreesAll_cons, List.mem_cons, List.mem_append] at inside
    rw [subtreesAll_cons]
    apply List.Sublist.cons
    rcases inside with rfl | inside | inside
    · exact List.sublist_append_left _ _
    · exact List.sublist_append_of_sublist_left (below inside)
    · exact List.sublist_append_of_sublist_right (later inside)

theorem mem_subtreesAll_of_children {tree inner : Tree} {nodes : List Tree}
    (inside : tree ∈ subtreesAll nodes) (below : inner ∈ subtreesAll tree.children) :
    inner ∈ subtreesAll nodes :=
  (subtreesAll_children_sublist inside).subset below

/-- A forest weighs twice as much as it has nodes. -/
theorem weightAll_eq (nodes : List Tree) : weightAll nodes = 2 * (subtreesAll nodes).length := by
  induction nodes using forestInduction with
  | nil => rw [weightAll, subtreesAll_nil, List.length_nil]
  | cons id content children rest below later =>
    rw [weightAll, weight_eq, subtreesAll_cons, List.length_cons, List.length_append]
    simp only [Tree.children, below, later]
    omega

/-- What is below a node inside a forest is lighter than the forest. -/
theorem weightAll_children_lt_of_mem {tree : Tree} {nodes : List Tree}
    (inside : tree ∈ subtreesAll nodes) : weightAll tree.children < weightAll nodes := by
  induction nodes using forestInduction with
  | nil => simp at inside
  | cons id content children rest below later =>
    rw [subtreesAll_cons, List.mem_cons, List.mem_append] at inside
    rcases inside with rfl | inside | inside
    · exact weightAll_children_lt _ rest
    · exact Nat.lt_trans (below inside) (weightAll_children_lt (.node id content children) rest)
    · exact Nat.lt_trans (later inside) (weightAll_rest_lt _ rest)

theorem mem_levels {nodes level : List Tree} :
    level ∈ levels nodes ↔ level = nodes ∨ ∃ tree ∈ subtreesAll nodes, tree.children = level := by
  rw [levels, List.mem_cons, List.mem_map]

/-- Every tree inside a forest is a member of one of its sibling lists. -/
theorem exists_level_of_mem_subtreesAll {tree : Tree} {nodes : List Tree}
    (inside : tree ∈ subtreesAll nodes) : ∃ level ∈ levels nodes, tree ∈ level := by
  induction nodes using forestInduction with
  | nil => simp at inside
  | cons id content children rest below later =>
    have head : Tree.node id content children ∈ subtreesAll (.node id content children :: rest) :=
      mem_subtreesAll_of_mem List.mem_cons_self
    rw [subtreesAll_cons, List.mem_cons, List.mem_append] at inside
    rcases inside with rfl | inside | inside
    · exact ⟨_, List.mem_cons_self, List.mem_cons_self⟩
    · obtain ⟨level, here, member⟩ := below inside
      refine ⟨level, mem_levels.mpr (Or.inr ?_), member⟩
      rcases mem_levels.mp here with rfl | ⟨owner, deeper, rfl⟩
      · exact ⟨_, head, rfl⟩
      · exact ⟨owner, mem_subtreesAll_of_children head deeper, rfl⟩
    · obtain ⟨level, here, member⟩ := later inside
      rcases mem_levels.mp here with rfl | ⟨owner, deeper, rfl⟩
      · exact ⟨_, List.mem_cons_self, List.mem_cons_of_mem _ member⟩
      · refine ⟨owner.children, mem_levels.mpr (Or.inr ⟨owner, ?_, rfl⟩), member⟩
        rw [subtreesAll_cons]
        exact List.mem_cons_of_mem _ (List.mem_append_right _ deeper)

/-! ### Ids -/

@[simp] theorem idsAll_nil : idsAll [] = [] := by
  rw [idsAll, subtreesAll_nil, List.map_nil]

theorem idsAll_cons (tree : Tree) (rest : List Tree) :
    idsAll (tree :: rest) = tree.id :: (idsAll tree.children ++ idsAll rest) := by
  rw [idsAll, subtreesAll_cons, List.map_cons, List.map_append]
  rfl

theorem idsAll_append (first second : List Tree) :
    idsAll (first ++ second) = idsAll first ++ idsAll second := by
  rw [idsAll, subtreesAll_append, List.map_append]
  rfl

theorem id_mem_idsAll {tree : Tree} {nodes : List Tree} (inside : tree ∈ subtreesAll nodes) :
    tree.id ∈ idsAll nodes :=
  List.mem_map_of_mem inside

/-- The ids of the members of a forest are among the ids in it, in the same order. -/
theorem map_id_sublist (nodes : List Tree) : (nodes.map id).Sublist (idsAll nodes) := by
  induction nodes with
  | nil => simp
  | cons tree rest ih =>
    rw [List.map_cons, idsAll_cons]
    exact List.Sublist.cons_cons _ (List.sublist_append_of_sublist_right ih)

namespace Distinct

variable {nodes first second : List Tree} {tree : Tree}

theorem cons (distinct : Distinct (tree :: nodes)) :
    tree.id ∉ idsAll tree.children ∧ tree.id ∉ idsAll nodes ∧ Distinct tree.children ∧
      Distinct nodes ∧ List.Disjoint (idsAll tree.children) (idsAll nodes) := by
  unfold Distinct at distinct
  rw [idsAll_cons, List.nodup_cons, List.mem_append, not_or, List.nodup_append'] at distinct
  exact ⟨distinct.1.1, distinct.1.2, distinct.2.1, distinct.2.2.1, distinct.2.2.2⟩

theorem append (distinct : Distinct (first ++ second)) :
    Distinct first ∧ Distinct second ∧ List.Disjoint (idsAll first) (idsAll second) := by
  unfold Distinct at distinct
  rw [idsAll_append, List.nodup_append'] at distinct
  exact distinct

theorem children (distinct : Distinct nodes) (inside : tree ∈ subtreesAll nodes) :
    Distinct tree.children :=
  List.Nodup.sublist ((subtreesAll_children_sublist inside).map id) distinct

/-- Two trees of one id inside a forest are the same tree. -/
theorem eq_of_id (distinct : Distinct nodes) {other : Tree} (inside : tree ∈ subtreesAll nodes)
    (within : other ∈ subtreesAll nodes) (same : tree.id = other.id) : tree = other :=
  List.inj_on_of_nodup_map distinct inside within same

end Distinct

namespace Leafy

variable {nodes first second : List Tree} {tree : Tree}

theorem cons (leafy : Leafy (tree :: nodes)) : Leafy tree.children ∧ Leafy nodes := by
  refine ⟨fun inner inside => leafy inner ?_, fun inner inside => leafy inner ?_⟩
  · rw [subtreesAll_cons, List.mem_cons, List.mem_append]
    exact Or.inr (Or.inl inside)
  · rw [subtreesAll_cons, List.mem_cons, List.mem_append]
    exact Or.inr (Or.inr inside)

theorem append (leafy : Leafy (first ++ second)) : Leafy first ∧ Leafy second := by
  refine ⟨fun inner inside => leafy inner ?_, fun inner inside => leafy inner ?_⟩
  · rw [subtreesAll_append]
    exact List.mem_append_left _ inside
  · rw [subtreesAll_append]
    exact List.mem_append_right _ inside

theorem head (leafy : Leafy (tree :: nodes)) (leaf : tree.content.isElement = false) :
    tree.children = [] :=
  leafy tree (mem_subtreesAll_of_mem List.mem_cons_self) leaf

end Leafy

end DataBind.Markup.Tree
