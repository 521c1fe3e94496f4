/-
**The moments of a walk.**

A walk goes on from moment to moment. At each of them its frames tell which visit is due, and the
answer of the visitor to this visit tells the frames of the next one. A node that is left, or entered
without having children, gets a frame without siblings, so that its closing is due next.

* `due?`: the visit that is due at some frames;
* `framesAfter`: the frames after the answer to it;
* `Comes`: the moments that a walk of a forest comes to;
* `Comes.walkFrames_eq`: from each of them it goes on to the same end;
* `Comes.suffix`: the siblings of a frame are the last ones of their list;
* `exists_end`: a walk comes to a moment without frames, or to one at which its visitor stops it.
-/

import DataBind.Markup.Walk

namespace DataBind.Markup

variable {σ : Type}

/-- The visit that is due at some frames: the next sibling opens, or the node above closes. Behind
the siblings at the top of the forest none is due. -/
def due? : List Frame → Option Visit
  | [] => none
  | ⟨parent, []⟩ :: outer => parent.map fun node => ⟨node, outer.head?.bind Frame.parent, false⟩
  | ⟨parent, node :: _⟩ :: _ => some ⟨node, parent, true⟩

/-- The frames after an answer to the visit that is due. -/
def framesAfter (answer : Action) : List Frame → List Frame
  | [] => []
  | ⟨_, []⟩ :: outer =>
    match answer with
    | .leave => leaveInnermost outer
    | _ => outer
  | ⟨parent, node :: siblings⟩ :: outer =>
    match answer with
    | .descend => ⟨some node, node.children⟩ :: ⟨parent, siblings⟩ :: outer
    | .leave => ⟨some node, []⟩ :: ⟨parent, []⟩ :: outer
    | _ => ⟨parent, siblings⟩ :: outer

/-- The moments that a walk of a forest comes to: the states of its visitor with the frames. -/
inductive Comes (visitor : σ → Visit → σ × Action) (first : σ) (nodes : List Tree) :
    σ → List Frame → Prop
  | start : Comes visitor first nodes first [⟨none, nodes⟩]
  /-- The siblings at the top of the forest have been visited. -/
  | past {state : σ} {outer : List Frame} :
      Comes visitor first nodes state (⟨none, []⟩ :: outer) → Comes visitor first nodes state outer
  /-- The visit that is due has been answered. -/
  | answered {state next : σ} {frames : List Frame} {visit : Visit} {answer : Action} :
      Comes visitor first nodes state frames → due? frames = some visit →
      visitor state visit = (next, answer) → answer ≠ .stop →
      Comes visitor first nodes next (framesAfter answer frames)

section Steps

variable {visitor : σ → Visit → σ × Action} {state next : σ} {frames : List Frame} {visit : Visit}
  {answer : Action}

/-- What can be due: a closing behind the last sibling, or the opening of a sibling. -/
theorem due?_cases (due : due? frames = some visit) :
    (∃ node outer, frames = ⟨some node, []⟩ :: outer ∧
        visit = ⟨node, outer.head?.bind Frame.parent, false⟩) ∨
      ∃ parent node siblings outer, frames = ⟨parent, node :: siblings⟩ :: outer ∧
        visit = ⟨node, parent, true⟩ := by
  match frames with
  | [] => cases due
  | ⟨none, []⟩ :: _ => cases due
  | ⟨some node, []⟩ :: outer => exact Or.inl ⟨node, outer, rfl, (Option.some.inj due).symm⟩
  | ⟨parent, node :: siblings⟩ :: outer =>
    exact Or.inr ⟨parent, node, siblings, outer, rfl, (Option.some.inj due).symm⟩

theorem walkFrames_past (visitor : σ → Visit → σ × Action) (state : σ) (outer : List Frame) :
    walkFrames visitor state (⟨none, []⟩ :: outer) = walkFrames visitor state outer := by
  rw [walkFrames]

/-- A visitor that stops at a visit has ended the walk. -/
theorem walkFrames_stopped (due : due? frames = some visit)
    (answered : visitor state visit = (next, .stop)) :
    walkFrames visitor state frames = (next, some visit.node) := by
  rcases due?_cases due with ⟨node, outer, rfl, rfl⟩ | ⟨parent, node, siblings, outer, rfl, rfl⟩
  · rw [walkFrames]
    simp only [answered]
  · rw [walkFrames]
    simp only [answered]

/-- What a walk does at a closing that is due. -/
theorem walkFrames_closing (visitor : σ → Visit → σ × Action) (state : σ) (node : Tree)
    (parent : Option Tree) (siblings : List Tree) (outer : List Frame) :
    walkFrames visitor state (⟨some node, []⟩ :: ⟨parent, siblings⟩ :: outer) =
      match visitor state ⟨node, parent, false⟩ with
      | (closed, .stop) => (closed, some node)
      | (closed, .leave) => walkFrames visitor closed (⟨parent, []⟩ :: outer)
      | (closed, .descend) | (closed, .skip) =>
        walkFrames visitor closed (⟨parent, siblings⟩ :: outer) := by
  rw [walkFrames]
  simp only [List.head?_cons, Option.bind_some, leaveInnermost]
  cases visitor state ⟨node, parent, false⟩ with
  | mk closed last => cases last <;> rfl

/-- **After any other answer the walk goes on** from the next moment. -/
theorem walkFrames_answered (due : due? frames = some visit)
    (answered : visitor state visit = (next, answer)) (goesOn : answer ≠ .stop) :
    walkFrames visitor state frames = walkFrames visitor next (framesAfter answer frames) := by
  rcases due?_cases due with ⟨node, outer, rfl, rfl⟩ | ⟨parent, node, siblings, outer, rfl, rfl⟩
  · rw [walkFrames]
    cases answer with
    | stop => exact absurd rfl goesOn
    | descend => simp only [answered, framesAfter]
    | skip => simp only [answered, framesAfter]
    | leave => simp only [answered, framesAfter]
  · rw [walkFrames]
    cases answer with
    | stop => exact absurd rfl goesOn
    | skip => simp only [answered, framesAfter]
    | leave =>
      simp only [answered, framesAfter, walkFrames_closing]
      cases visitor next ⟨node, parent, false⟩ with
      | mk closed last => cases last <;> rfl
    | descend =>
      simp only [answered, framesAfter]
      by_cases leaf : node.children.isEmpty
      · rw [if_pos leaf, List.isEmpty_iff.mp leaf, walkFrames_closing]
        cases visitor next ⟨node, parent, false⟩ with
        | mk closed last => cases last <;> rfl
      · rw [if_neg leaf]

/-- Every answer leaves less of the walk. -/
theorem remaining_framesAfter_lt (due : due? frames = some visit) (answer : Action) :
    remaining (framesAfter answer frames) < remaining frames := by
  rcases due?_cases due with ⟨node, outer, rfl, rfl⟩ | ⟨parent, node, siblings, outer, rfl, rfl⟩
  · have left := remaining_leaveInnermost outer
    cases answer <;> simp only [framesAfter, remaining, Tree.weightAll] <;> omega
  · have weight := node.weight_eq
    cases answer <;> simp only [framesAfter, remaining, Tree.weightAll] <;> omega

end Steps

section Moments

variable {visitor : σ → Visit → σ × Action} {first state : σ} {nodes : List Tree}
  {frames : List Frame}

/-- **From every moment the walk goes on to the same end.** -/
theorem Comes.walkFrames_eq (comes : Comes visitor first nodes state frames) :
    walkFrames visitor state frames = walk visitor first nodes := by
  induction comes with
  | start => rfl
  | past _ same => rw [← same, walkFrames_past]
  | answered _ due answered goesOn same => rw [← same, walkFrames_answered due answered goesOn]

/-- The siblings that the frames still hold are the last ones of a list: of the children of the
node above, or of the forest. -/
theorem Comes.suffix (comes : Comes visitor first nodes state frames) :
    ∀ frame ∈ frames, frame.siblings <:+ (frame.parent.map Tree.children).getD nodes := by
  induction comes with
  | start => simp
  | past _ ends => exact fun frame member => ends frame (List.mem_cons_of_mem _ member)
  | @answered _ _ _ _ answer _ due _ goesOn ends =>
    rcases due?_cases due with ⟨node, outer, rfl, rfl⟩ | ⟨parent, node, siblings, outer, rfl, rfl⟩
    · have outside := (List.forall_mem_cons.mp ends).2
      cases answer with
      | stop => exact absurd rfl goesOn
      | descend => exact outside
      | skip => exact outside
      | leave =>
        cases outer with
        | nil => exact outside
        | cons frame outer =>
          exact List.forall_mem_cons.mpr ⟨List.nil_suffix, (List.forall_mem_cons.mp outside).2⟩
    · obtain ⟨here, outside⟩ := List.forall_mem_cons.mp ends
      have later := (List.suffix_cons node siblings).trans here
      cases answer with
      | stop => exact absurd rfl goesOn
      | skip => exact List.forall_mem_cons.mpr ⟨later, outside⟩
      | leave =>
        exact List.forall_mem_cons.mpr ⟨List.nil_suffix,
          List.forall_mem_cons.mpr ⟨List.nil_suffix, outside⟩⟩
      | descend =>
        exact List.forall_mem_cons.mpr ⟨List.suffix_rfl,
          List.forall_mem_cons.mpr ⟨later, outside⟩⟩

/-- **A walk ends** at a moment without frames, or at a visit at which its visitor stops it. -/
theorem exists_end (visitor : σ → Visit → σ × Action) (first : σ) (nodes : List Tree) :
    ∃ state frames, Comes visitor first nodes state frames ∧
      (frames = [] ∧ walk visitor first nodes = (state, none) ∨
        ∃ visit final, due? frames = some visit ∧ visitor state visit = (final, .stop) ∧
          walk visitor first nodes = (final, some visit.node)) := by
  -- by induction on what remains, from every moment
  have onward : ∀ state frames, Comes visitor first nodes state frames →
      ∃ state frames, Comes visitor first nodes state frames ∧
        (frames = [] ∧ walk visitor first nodes = (state, none) ∨
          ∃ visit final, due? frames = some visit ∧ visitor state visit = (final, .stop) ∧
            walk visitor first nodes = (final, some visit.node)) := by
    intro state frames
    induction size : remaining frames using Nat.strongRecOn generalizing state frames
    rename_i bound ih
    intro comes
    cases due : due? frames with
    | some visit =>
      cases answered : visitor state visit with
      | mk next answer =>
        by_cases stops : answer = .stop
        · subst stops
          exact ⟨state, frames, comes, Or.inr ⟨visit, next, due, answered,
            comes.walkFrames_eq.symm.trans (walkFrames_stopped due answered)⟩⟩
        · exact ih _ (size ▸ remaining_framesAfter_lt due answer) next _ rfl
            (comes.answered due answered stops)
    | none =>
      match frames with
      | [] => exact ⟨state, [], comes, Or.inl ⟨rfl, by rw [← comes.walkFrames_eq, walkFrames]⟩⟩
      | ⟨some _, []⟩ :: _ => cases due
      | ⟨_, _ :: _⟩ :: _ => cases due
      | ⟨none, []⟩ :: outer =>
        refine ih (remaining outer) ?_ state outer rfl comes.past
        rw [← size, remaining]
        omega
  exact onward first _ .start

end Moments

end DataBind.Markup
