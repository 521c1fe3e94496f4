/-
**What a walk asks its visitor.**

A walk is determined by the answers of its visitor, so it can be followed through the questions: the
states in which the visitor was asked, with the visits.

* `traverseAll_related`: visitors that answer alike in related states walk alike;
* `logged`, `asked`: a visitor that keeps a log of the questions, and the log of a walk;
* `node_mem_of_asked`: only nodes of the forest are asked about;
* `final_of_asked`: what no answer undoes still holds at the end of the walk;
* `traverseAll_logged`: the log does not change the walk;
* `askedAll_of_skip`, `askedAll_of_descend`, `askedAll_append`: the questions by recursion over the
  trees.
-/

import DataBind.Proofs.Markup.Subtrees
import DataBind.Proofs.Markup.Traversal

namespace DataBind.Markup

open DataBind.Markup.Tree

variable {σ τ : Type}

/-! ### Walks side by side -/

/-- Related states with the same outcome. -/
structure Alike {α : Type} (related : σ → τ → Prop) (first : σ × α) (second : τ × α) : Prop where
  state : related first.1 second.1
  outcome : first.2 = second.2

/-- **Visitors that answer alike in related states walk alike**: the final states are related, and
both stop at the same node if they stop. -/
theorem traverseAll_related {related : σ → τ → Prop} {visitor : σ → Visit → σ × Action}
    {other : τ → Visit → τ × Action} {nodes : List Tree}
    (step : ∀ state also visit, visit.node ∈ subtreesAll nodes → related state also →
      Alike related (visitor state visit) (other also visit))
    (parent : Option Tree) {state : σ} {also : τ} (start : related state also) :
    Alike related (traverseAll visitor parent state nodes)
      (traverseAll other parent also nodes) := by
  induction nodes using forestInduction generalizing parent state also with
  | nil => exact ⟨start, rfl⟩
  | cons id content children rest below later =>
    let node := Tree.node id content children
    have under : ∀ {opened also}, related opened also →
        Alike related (traverseAll visitor (some node) opened children)
          (traverseAll other (some node) also children) :=
      below (fun state also visit inside => step state also visit (by
        rw [subtreesAll_cons]
        exact List.mem_cons_of_mem _ (List.mem_append_left _ inside))) (some node)
    have after : ∀ {closed also}, related closed also →
        Alike related (traverseAll visitor parent closed rest)
          (traverseAll other parent also rest) :=
      later (fun state also visit inside => step state also visit (by
        rw [subtreesAll_cons]
        exact List.mem_cons_of_mem _ (List.mem_append_right _ inside))) parent
    have here := fun isOpening {state also} => step state also ⟨node, parent, isOpening⟩
      (mem_subtreesAll_of_mem List.mem_cons_self)
    have opens := here true start
    rw [traverseAll, traverse, traverseAll, traverse]
    revert opens
    obtain ⟨opened, action⟩ := visitor state ⟨node, parent, true⟩
    obtain ⟨openedAlso, actionAlso⟩ := other also ⟨node, parent, true⟩
    rintro ⟨kept, equal⟩
    cases equal
    cases action with
    | stop => exact ⟨kept, rfl⟩
    | skip => exact after kept
    | leave =>
      have closes := here false kept
      revert closes
      simp only
      obtain ⟨closed, answer⟩ := visitor opened ⟨node, parent, false⟩
      obtain ⟨closedAlso, same⟩ := other openedAlso ⟨node, parent, false⟩
      rintro ⟨still, equal⟩
      cases equal
      cases answer <;> exact ⟨still, rfl⟩
    | descend =>
      have inner := under kept
      revert inner
      simp only
      obtain ⟨final, halted⟩ := traverseAll visitor (some node) opened children
      obtain ⟨finalAlso, same⟩ := traverseAll other (some node) openedAlso children
      rintro ⟨still, equal⟩
      cases equal
      cases halted with
      | some found => exact ⟨still, rfl⟩
      | none =>
        have closes := here false still
        revert closes
        simp only
        obtain ⟨closed, answer⟩ := visitor final ⟨node, parent, false⟩
        obtain ⟨closedAlso, same⟩ := other finalAlso ⟨node, parent, false⟩
        rintro ⟨last, equal⟩
        cases equal
        cases answer with
        | stop => exact ⟨last, rfl⟩
        | leave => exact ⟨last, rfl⟩
        | descend => exact after last
        | skip => exact after last

/-! ### The questions of a walk -/

/-- A visitor that keeps a log of what it is asked, and in which states. -/
def logged (visitor : σ → Visit → σ × Action) (state : σ × List (σ × Visit)) (visit : Visit) :
    (σ × List (σ × Visit)) × Action :=
  let answer := visitor state.1 visit
  ((answer.1, state.2 ++ [(state.1, visit)]), answer.2)

/-- What a walk of a forest asks its visitor, in order. -/
def asked (visitor : σ → Visit → σ × Action) (state : σ) (nodes : List Tree) : List (σ × Visit) :=
  (walk (logged visitor) (state, []) nodes).1.2

/-- What holds at the start and after every answer holds of the log of a walk. -/
theorem logged_induction {visitor : σ → Visit → σ × Action} {state : σ} {nodes : List Tree}
    {holds : σ → List (σ × Visit) → Prop} (start : holds state [])
    (step : ∀ state log visit, visit.node ∈ subtreesAll nodes → holds state log →
      holds (visitor state visit).1 (log ++ [(state, visit)])) :
    holds (walk visitor state nodes).1 (asked visitor state nodes) := by
  have held : Alike (fun noted also => also = noted.1 ∧ holds noted.1 noted.2)
      (walk (logged visitor) (state, []) nodes) (walk visitor state nodes) := by
    rw [walk_eq_traverseAll, walk_eq_traverseAll]
    refine traverseAll_related ?_ none ⟨rfl, start⟩
    rintro noted _ visit inside ⟨rfl, held⟩
    exact ⟨⟨rfl, step noted.1 noted.2 visit inside held⟩, rfl⟩
  obtain ⟨same, log⟩ := held.state
  rw [same]
  exact log

variable {visitor : σ → Visit → σ × Action} {first state : σ} {visit : Visit} {nodes : List Tree}

/-- Only nodes of the forest are asked about. -/
theorem node_mem_of_asked (question : (state, visit) ∈ asked visitor first nodes) :
    visit.node ∈ subtreesAll nodes := by
  refine @logged_induction σ visitor first nodes
    (fun _ log => ∀ entry ∈ log, entry.2.node ∈ subtreesAll nodes) ?_ ?_ _ question
  · simp
  · intro state log visit inside held
    exact List.forall_mem_append.mpr ⟨held, by simpa using inside⟩

/-- **What no answer undoes still holds at the end of the walk**, of every answer on the way. -/
theorem final_of_asked {before : σ → σ → Prop} (refl : ∀ state, before state state)
    (trans : ∀ state middle final, before state middle → before middle final → before state final)
    (kept : ∀ state visit, before state (visitor state visit).1)
    (question : (state, visit) ∈ asked visitor first nodes) :
    before (visitor state visit).1 (walk visitor first nodes).1 := by
  refine @logged_induction σ visitor first nodes
    (fun final log => ∀ entry ∈ log, before (visitor entry.1 entry.2).1 final) ?_ ?_ _ question
  · simp
  · intro state log visit _ held
    refine List.forall_mem_append.mpr ⟨fun entry member => ?_, ?_⟩
    · exact trans _ _ _ (held entry member) (kept state visit)
    · simpa using refl _

/-! ### The questions by recursion -/

/-- What a traversal of siblings asks its visitor, in order. -/
def askedAll (visitor : σ → Visit → σ × Action) (parent : Option Tree) (state : σ)
    (nodes : List Tree) : List (σ × Visit) :=
  (traverseAll (logged visitor) parent (state, []) nodes).1.2

theorem asked_eq_askedAll (visitor : σ → Visit → σ × Action) (state : σ) (nodes : List Tree) :
    asked visitor state nodes = askedAll visitor none state nodes := by
  rw [asked, askedAll, walk_eq_traverseAll]

@[simp] theorem askedAll_nil (visitor : σ → Visit → σ × Action) (parent : Option Tree)
    (state : σ) : askedAll visitor parent state [] = [] := by
  rw [askedAll, traverseAll_nil]

/-- **The log does not change the walk**, which goes on with the log that it is given. -/
theorem traverseAll_logged (visitor : σ → Visit → σ × Action) (parent : Option Tree) (state : σ)
    (log : List (σ × Visit)) (nodes : List Tree) :
    traverseAll (logged visitor) parent (state, log) nodes =
      (((traverseAll visitor parent state nodes).1,
        log ++ askedAll visitor parent state nodes),
        (traverseAll visitor parent state nodes).2) := by
  have plain : Alike (fun noted state => noted.1 = state)
      (traverseAll (logged visitor) parent (state, log) nodes)
      (traverseAll visitor parent state nodes) := by
    refine traverseAll_related ?_ parent rfl
    rintro noted _ visit _ rfl
    exact ⟨rfl, rfl⟩
  have fresh : Alike (fun noted other => noted = (other.1, log ++ other.2))
      (traverseAll (logged visitor) parent (state, log) nodes)
      (traverseAll (logged visitor) parent (state, []) nodes) := by
    refine traverseAll_related ?_ parent (by rw [List.append_nil])
    rintro _ other visit _ rfl
    exact ⟨by simp [logged], rfl⟩
  have same := congrArg Prod.snd fresh.state
  exact Prod.ext (Prod.ext plain.state same) plain.outcome

section Recursion

variable {parent : Option Tree} {opened middle closed : σ} {node : Tree}

/-- A node that is skipped is asked about once. -/
theorem askedAll_of_skip (answer : visitor state ⟨node, parent, true⟩ = (opened, .skip))
    (rest : List Tree) :
    askedAll visitor parent state (node :: rest) =
      (state, ⟨node, parent, true⟩) :: askedAll visitor parent opened rest := by
  have noted : logged visitor (state, []) ⟨node, parent, true⟩ =
      ((opened, [(state, ⟨node, parent, true⟩)]), .skip) := by
    rw [logged, answer]
    rfl
  rw [askedAll, traverseAll_of_skip noted, traverseAll_logged]
  rfl

/-- A node that is entered is asked about before and after its children. -/
theorem askedAll_of_descend (answer : visitor state ⟨node, parent, true⟩ = (opened, .descend))
    (below : traverseAll visitor (some node) opened node.children = (middle, none))
    (closing : visitor middle ⟨node, parent, false⟩ = (closed, .descend)) (rest : List Tree) :
    askedAll visitor parent state (node :: rest) =
      (state, ⟨node, parent, true⟩) :: (askedAll visitor (some node) opened node.children ++
        (middle, ⟨node, parent, false⟩) :: askedAll visitor parent closed rest) := by
  have noted : logged visitor (state, []) ⟨node, parent, true⟩ =
      ((opened, [(state, ⟨node, parent, true⟩)]), .descend) := by
    rw [logged, answer]
    rfl
  rw [askedAll, traverseAll_of_descend noted, traverseAll_logged, below, andThen_none]
  simp only [logged, closing, traverseAll_logged]
  simp

/-- A visitor that never leaves siblings is asked about a list part by part. -/
theorem askedAll_append (stays : ∀ state visit, (visitor state visit).2 ≠ .leave)
    {front : List Tree} (passed : traverseAll visitor parent state front = (middle, none))
    (back : List Tree) :
    askedAll visitor parent state (front ++ back) =
      askedAll visitor parent state front ++ askedAll visitor parent middle back := by
  have noted : ∀ state visit, (logged visitor state visit).2 ≠ .leave := fun state visit =>
    stays state.1 visit
  rw [askedAll, traverseAll_append noted, traverseAll_logged, passed, andThen_none,
    traverseAll_logged]
  rfl

end Recursion

end DataBind.Markup
