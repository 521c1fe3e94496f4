/-
**Walking a forest in document order.**

A walk visits each node when it opens and, after its children, when it closes. The visitor keeps a
state and steers the walk by its answers. The places still to be visited stand on a stack of
frames, one for each open node and one for the forest.

* `walk_nil`: walking nothing visits nothing;
* `remaining`: a measure of the frames that every step of the walk makes smaller.
-/

import DataBind.Markup.Fragment

namespace DataBind.Markup

/-- How a walk goes on after a visit. -/
inductive Action where
  /-- To the children, and then on. -/
  | descend
  /-- Past the children and the closing of the node. -/
  | skip
  /-- Past the children and the remaining siblings; the node and its parent still close. -/
  | leave
  /-- Not at all. -/
  | stop
  deriving DecidableEq, Repr

/-- One event of a walk. -/
structure Visit where
  node : Tree
  /-- The node's parent, if it has been visited too. -/
  parent : Option Tree
  isOpening : Bool

/-- The siblings still to be visited below a node, or at the top of the forest. -/
structure Frame where
  parent : Option Tree
  siblings : List Tree

/-- How much of a walk remains. -/
def remaining : List Frame → Nat
  | [] => 0
  | frame :: outer => 1 + Tree.weightAll frame.siblings + remaining outer

/-- The frames in which the innermost siblings are passed over. -/
def leaveInnermost : List Frame → List Frame
  | [] => []
  | frame :: outer => { frame with siblings := [] } :: outer

theorem remaining_leaveInnermost (frames : List Frame) :
    remaining (leaveInnermost frames) ≤ remaining frames := by
  cases frames <;> simp [leaveInnermost, remaining, Tree.weightAll]

variable {σ : Type}

/-- Walks on from a stack of frames, innermost first. The result holds the final state, and the
node at which the visitor stopped. -/
def walkFrames (visitor : σ → Visit → σ × Action) (state : σ) (frames : List Frame) :
    σ × Option Tree :=
  match frames with
  | [] => (state, none)
  | ⟨none, []⟩ :: outer => walkFrames visitor state outer
  | ⟨some node, []⟩ :: outer =>
    let answer := visitor state ⟨node, outer.head?.bind Frame.parent, false⟩
    match answer.2 with
    | .stop => (answer.1, some node)
    | .leave =>
      have := remaining_leaveInnermost outer
      walkFrames visitor answer.1 (leaveInnermost outer)
    | .descend | .skip => walkFrames visitor answer.1 outer
  | ⟨parent, node :: siblings⟩ :: outer =>
    have := node.weight_eq
    let answer := visitor state ⟨node, parent, true⟩
    match answer.2 with
    | .stop => (answer.1, some node)
    | .skip => walkFrames visitor answer.1 (⟨parent, siblings⟩ :: outer)
    | .leave =>
      let closing := visitor answer.1 ⟨node, parent, false⟩
      match closing.2 with
      | .stop => (closing.1, some node)
      | _ => walkFrames visitor closing.1 (⟨parent, []⟩ :: outer)
    | .descend =>
      if node.children.isEmpty then
        let closing := visitor answer.1 ⟨node, parent, false⟩
        match closing.2 with
        | .stop => (closing.1, some node)
        | .leave => walkFrames visitor closing.1 (⟨parent, []⟩ :: outer)
        | .descend | .skip => walkFrames visitor closing.1 (⟨parent, siblings⟩ :: outer)
      else
        walkFrames visitor answer.1 (⟨some node, node.children⟩ :: ⟨parent, siblings⟩ :: outer)
termination_by remaining frames
decreasing_by all_goals simp_all [remaining, Tree.weightAll] <;> omega

/-- Walks a forest. -/
def walk (visitor : σ → Visit → σ × Action) (state : σ) (nodes : List Tree) : σ × Option Tree :=
  walkFrames visitor state [⟨none, nodes⟩]

/-- Walking nothing visits nothing. -/
theorem walk_nil (visitor : σ → Visit → σ × Action) (state : σ) :
    walk visitor state [] = (state, none) := by
  rw [walk, walkFrames, walkFrames]

end DataBind.Markup
