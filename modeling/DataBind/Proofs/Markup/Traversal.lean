/-
**A walk is a recursive traversal.**

The frames of a walk are the call stack of a recursion over the forest: a node opens, its children
are traversed, the node closes, and the traversal goes on with the next sibling unless an answer of
the visitor says otherwise.

* `traverseAll`: the traversal by recursion over the trees, with no stack;
* `walkFrames_cons`: walking on from a frame traverses its siblings and then closes its parent;
* `walk_eq_traverseAll`: a walk of a forest is its traversal, for every visitor.
-/

import DataBind.Markup.Walk

namespace DataBind.Markup

variable {σ : Type}

/-- How a traversal goes on after a node and all below it. -/
inductive Flow where
  /-- To the next sibling. -/
  | onward
  /-- Past the remaining siblings. -/
  | upward
  /-- Not at all; the visitor stopped at a node. -/
  | halted (node : Tree)

/-- How a traversal goes on after the closing of a node. -/
def flowAfterClosing (node : Tree) : Action → Flow
  | .stop => .halted node
  | .leave => .upward
  | .descend | .skip => .onward

mutual

/-- Traverses a tree below a parent. -/
def traverse (visitor : σ → Visit → σ × Action) (parent : Option Tree) (state : σ) :
    Tree → σ × Flow
  | .node id content children =>
    let node := Tree.node id content children
    let opening := visitor state ⟨node, parent, true⟩
    match opening.2 with
    | .stop => (opening.1, .halted node)
    | .skip => (opening.1, .onward)
    | .leave =>
      let closing := visitor opening.1 ⟨node, parent, false⟩
      match closing.2 with
      | .stop => (closing.1, .halted node)
      | _ => (closing.1, .upward)
    | .descend =>
      match traverseAll visitor (some node) opening.1 children with
      | (below, some found) => (below, .halted found)
      | (below, none) =>
        let closing := visitor below ⟨node, parent, false⟩
        (closing.1, flowAfterClosing node closing.2)

/-- Traverses siblings below a parent. The result holds the final state, and the node at which the
visitor stopped. -/
def traverseAll (visitor : σ → Visit → σ × Action) (parent : Option Tree) (state : σ) :
    List Tree → σ × Option Tree
  | [] => (state, none)
  | tree :: rest =>
    match traverse visitor parent state tree with
    | (after, .halted node) => (after, some node)
    | (after, .upward) => (after, none)
    | (after, .onward) => traverseAll visitor parent after rest

end

@[simp] theorem traverseAll_nil (visitor : σ → Visit → σ × Action) (parent : Option Tree)
    (state : σ) : traverseAll visitor parent state [] = (state, none) := by
  rw [traverseAll]

/-- A visitor that never leaves siblings is never sent past them. -/
theorem traverse_ne_upward {visitor : σ → Visit → σ × Action}
    (stays : ∀ state visit, (visitor state visit).2 ≠ .leave) (parent : Option Tree)
    (state : σ) (tree : Tree) (after : σ) :
    traverse visitor parent state tree ≠ (after, .upward) := by
  obtain ⟨id, content, children⟩ := tree
  have opening := stays state ⟨.node id content children, parent, true⟩
  rw [traverse]
  cases answer : (visitor state ⟨.node id content children, parent, true⟩).2 with
  | leave => exact absurd answer opening
  | stop => simp
  | skip => simp
  | descend =>
    simp only
    split
    · simp
    · rename_i below _
      have closing := stays below ⟨.node id content children, parent, false⟩
      cases last : (visitor below ⟨.node id content children, parent, false⟩).2 <;>
        simp_all [flowAfterClosing]

/-- Goes on from the state of a traversal, unless the visitor stopped. -/
def andThen (traversed : σ × Option Tree) (next : σ → σ × Option Tree) : σ × Option Tree :=
  match traversed with
  | (state, some node) => (state, some node)
  | (state, none) => next state

@[simp] theorem andThen_none (state : σ) (next : σ → σ × Option Tree) :
    andThen (state, none) next = next state := rfl

/-- What has not been stopped in two parts has not been stopped in the first. -/
theorem exists_of_andThen {traversed : σ × Option Tree} {next : σ → σ × Option Tree} {final : σ}
    (passed : andThen traversed next = (final, none)) :
    ∃ middle, traversed = (middle, none) ∧ next middle = (final, none) := by
  obtain ⟨middle, halted⟩ := traversed
  cases halted with
  | some node => cases passed
  | none => exact ⟨middle, rfl, passed⟩

/-! ### The answers to an opening node -/

section Answers

variable {visitor : σ → Visit → σ × Action} {parent : Option Tree} {state opened : σ} {node : Tree}

/-- A node that is skipped has no part in the traversal. -/
theorem traverseAll_of_skip (answer : visitor state ⟨node, parent, true⟩ = (opened, .skip))
    (rest : List Tree) :
    traverseAll visitor parent state (node :: rest) = traverseAll visitor parent opened rest := by
  obtain ⟨id, content, children⟩ := node
  rw [traverseAll, traverse]
  simp only [answer]

/-- A visitor that stops at a node has ended the traversal. -/
theorem traverseAll_of_stop (answer : visitor state ⟨node, parent, true⟩ = (opened, .stop))
    (rest : List Tree) :
    traverseAll visitor parent state (node :: rest) = (opened, some node) := by
  obtain ⟨id, content, children⟩ := node
  rw [traverseAll, traverse]
  simp only [answer]

/-- A node at which siblings are left closes, and nothing behind it is visited. -/
theorem traverseAll_of_leave (answer : visitor state ⟨node, parent, true⟩ = (opened, .leave))
    (rest : List Tree) :
    traverseAll visitor parent state (node :: rest) =
      match visitor opened ⟨node, parent, false⟩ with
      | (closed, .stop) => (closed, some node)
      | (closed, _) => (closed, none) := by
  obtain ⟨id, content, children⟩ := node
  rw [traverseAll, traverse]
  simp only [answer]
  cases visitor opened ⟨.node id content children, parent, false⟩ with
  | mk closed last => cases last <;> rfl

/-- A node that is entered is traversed before its later siblings. -/
theorem traverseAll_of_descend (answer : visitor state ⟨node, parent, true⟩ = (opened, .descend))
    (rest : List Tree) :
    traverseAll visitor parent state (node :: rest) =
      andThen (traverseAll visitor (some node) opened node.children) fun below =>
        match visitor below ⟨node, parent, false⟩ with
        | (closed, .stop) => (closed, some node)
        | (closed, .leave) => (closed, none)
        | (closed, .descend) | (closed, .skip) => traverseAll visitor parent closed rest := by
  obtain ⟨id, content, children⟩ := node
  rw [traverseAll, traverse]
  simp only [answer, Tree.children]
  cases traverseAll visitor (some (.node id content children)) opened children with
  | mk below halted =>
    cases halted with
    | some found => rfl
    | none =>
      rw [andThen_none]
      cases closing : visitor below ⟨.node id content children, parent, false⟩ with
      | mk closed last => cases last <;> simp only [closing, flowAfterClosing]

end Answers

/-- **A visitor that never leaves siblings traverses a list part by part.** -/
theorem traverseAll_append {visitor : σ → Visit → σ × Action}
    (stays : ∀ state visit, (visitor state visit).2 ≠ .leave) (parent : Option Tree)
    (state : σ) (first second : List Tree) :
    traverseAll visitor parent state (first ++ second) =
      andThen (traverseAll visitor parent state first) fun after =>
        traverseAll visitor parent after second := by
  induction first generalizing state with
  | nil => rw [List.nil_append, traverseAll_nil, andThen_none]
  | cons tree rest ih =>
    rw [List.cons_append, traverseAll, traverseAll]
    cases result : traverse visitor parent state tree with
    | mk after flow =>
      cases flow with
      | onward => exact ih after
      | halted node => rfl
      | upward => exact absurd result (traverse_ne_upward stays parent state tree after)

/-- **Walking on from a frame traverses its siblings**, and then goes on from the empty frame. -/
theorem walkFrames_cons (visitor : σ → Visit → σ × Action) (parent : Option Tree)
    (nodes : List Tree) (state : σ) (outer : List Frame) :
    walkFrames visitor state (⟨parent, nodes⟩ :: outer) =
      andThen (traverseAll visitor parent state nodes) fun after =>
        walkFrames visitor after (⟨parent, []⟩ :: outer) := by
  -- by induction on the weight: the children and the later siblings are both lighter
  induction weight : Tree.weightAll nodes using Nat.strongRecOn
    generalizing parent nodes state outer
  rename_i bound ih
  cases nodes with
  | nil => rw [traverseAll_nil, andThen_none]
  | cons tree rest =>
    obtain ⟨id, content, children⟩ := tree
    simp only [Tree.weightAll, Tree.weight] at weight
    have later := fun state outer => ih (Tree.weightAll rest) (by omega) parent rest state outer rfl
    rw [walkFrames, traverseAll, traverse]
    cases opening : visitor state ⟨.node id content children, parent, true⟩ with
    | mk opened answer =>
      cases answer with
      | stop => rfl
      | skip => exact later opened outer
      | leave =>
        cases closing : visitor opened ⟨.node id content children, parent, false⟩ with
        | mk closed answer => cases answer <;> simp only [andThen]
      | descend =>
        cases children with
        | nil =>
          simp only [Tree.children, List.isEmpty_nil, if_true, traverseAll_nil]
          cases closing : visitor opened ⟨.node id content [], parent, false⟩ with
          | mk closed answer =>
            cases answer <;> simp only [andThen, flowAfterClosing, later]
        | cons first others =>
          have below := ih (Tree.weightAll (first :: others)) (by omega)
            (some (.node id content (first :: others))) (first :: others) opened
            (⟨parent, rest⟩ :: outer) rfl
          simp only [Tree.children, List.isEmpty_cons, Bool.false_eq_true, if_false, below]
          cases traverseAll visitor (some (.node id content (first :: others))) opened
              (first :: others) with
          | mk below halted =>
            cases halted with
            | some node => rfl
            | none =>
              rw [andThen_none, walkFrames]
              simp only [List.head?_cons, Option.bind_some]
              cases closing : visitor below
                  ⟨.node id content (first :: others), parent, false⟩ with
              | mk closed answer =>
                cases answer <;> simp only [andThen, flowAfterClosing, leaveInnermost, later]

/-- **A walk of a forest is its traversal.** -/
theorem walk_eq_traverseAll (visitor : σ → Visit → σ × Action) (state : σ) (nodes : List Tree) :
    walk visitor state nodes = traverseAll visitor none state nodes := by
  rw [walk, walkFrames_cons]
  cases traverseAll visitor none state nodes with
  | mk after halted =>
    cases halted with
    | some node => rfl
    | none => rw [andThen_none, walkFrames, walkFrames]

end DataBind.Markup
