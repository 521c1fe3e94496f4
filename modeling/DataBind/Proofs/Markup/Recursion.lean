/-
**A walk of a fragment is a recursion over its nodes.**

A callback is told the ids of a node and of its parent, and whether the node opens or closes. The
nodes of a fragment are named by ids too, so what a walk does can be said of ids alone: the members
of a list are visited in order, and the children of a node between its opening and its closing.

* `Fragment.course`: what a walk of some nodes tells its callback, and how it ends;
* `Fragment.recurse`: the same by recursion over the ids, with no stack;
* `Fragment.course_eq_recurse`: they agree, whatever the callback answers;
* `WellNested`: openings and closings in pairs, one inside the other, each with its parent;
* `course_refines_recurse`: so a walk of siblings that is never turned aside opens and
  closes every node below them once, in document order.
-/

import DataBind.Proofs.Markup.Asking
import DataBind.Proofs.Markup.Growth

namespace DataBind.Markup

open DataBind.Markup.Tree

variable {σ : Type}

/-! ### Callbacks -/

/-- What a callback is told of a visit. -/
structure Report where
  node : NodeId
  /-- The node's parent, if it has been visited too. -/
  parent : Option NodeId
  isOpening : Bool
  deriving DecidableEq, Repr

/-- A visit by the ids of its nodes. -/
def Visit.report (visit : Visit) : Report :=
  ⟨visit.node.id, visit.parent.map Tree.id, visit.isOpening⟩

/-- The visitor that passes reports on to a callback. -/
def told (callback : σ → Report → σ × Action) (state : σ) (visit : Visit) : σ × Action :=
  callback state visit.report

/-- What was told, by the log of a visitor. -/
def reportsOf (log : List (σ × Visit)) : List Report :=
  log.map fun question => question.2.report

@[simp] theorem reportsOf_nil : reportsOf ([] : List (σ × Visit)) = [] := rfl

@[simp] theorem reportsOf_cons (question : σ × Visit) (log : List (σ × Visit)) :
    reportsOf (question :: log) = question.2.report :: reportsOf log := rfl

@[simp] theorem reportsOf_append (first second : List (σ × Visit)) :
    reportsOf (first ++ second) = reportsOf first ++ reportsOf second := by
  rw [reportsOf, reportsOf, reportsOf, List.map_append]

/-- How a walk went: what the callback was told, its final state, and the node at which it stopped
the walk. -/
structure Course (σ : Type) where
  reports : List Report
  state : σ
  stopped : Option NodeId
  deriving DecidableEq

namespace Course

/-- The course with more reports before it. -/
def after (reports : List Report) (course : Course σ) : Course σ :=
  { course with reports := reports ++ course.reports }

@[simp] theorem after_nil (course : Course σ) : course.after [] = course := rfl

@[simp] theorem after_after (first second : List Report) (course : Course σ) :
    (course.after second).after first = course.after (first ++ second) := by
  rw [after, after, after, List.append_assoc]

/-- The course that a traversal with a log has taken. -/
def ofLogged (traversed : (σ × List (σ × Visit)) × Option Tree) : Course σ :=
  ⟨reportsOf traversed.1.2, traversed.1.1, traversed.2.map Tree.id⟩

theorem exists_of_ofLogged {traversed : (σ × List (σ × Visit)) × Option Tree}
    {before reports : List Report} {final : σ} {stopped : Option NodeId}
    (taken : ofLogged traversed = after before ⟨reports, final, stopped⟩) :
    ∃ log halted, traversed = ((final, log), halted) ∧ reportsOf log = before ++ reports ∧
      halted.map Tree.id = stopped := by
  obtain ⟨⟨state, log⟩, halted⟩ := traversed
  rw [ofLogged, after, Course.mk.injEq] at taken
  obtain ⟨noted, rfl, stops⟩ := taken
  exact ⟨log, halted, rfl, noted, stops⟩

end Course

/-! ### The recursion -/

namespace Fragment

/-- The course of a walk of some nodes and all below them. -/
def course (fragment : Fragment) (callback : σ → Report → σ × Action) (state : σ)
    (ids : List NodeId) : Course σ :=
  let nodes := fragment.trees ids
  let (final, stopped) := walk (told callback) state nodes
  ⟨reportsOf (asked (told callback) state nodes), final, stopped.map Tree.id⟩

/-- How far a walk of some siblings has to go: what they and all below them weigh, and how many they
are. -/
def reach (fragment : Fragment) (ids : List NodeId) : Nat × Nat :=
  (weightAll (fragment.trees ids), ids.length)

/-- The later siblings are nearer to the end. -/
theorem reach_rest (fragment : Fragment) (own : NodeId) (rest : List NodeId) :
    Prod.Lex (· < ·) (· < ·) (fragment.reach rest) (fragment.reach (own :: rest)) := by
  have lighter : weightAll (fragment.trees rest) ≤ weightAll (fragment.trees (own :: rest)) := by
    rw [trees_cons, weightAll_append]
    exact Nat.le_add_left _ _
  exact Prod.lex_def.mpr ((Nat.lt_or_eq_of_le lighter).imp_right fun same =>
    ⟨same, Nat.lt_succ_self _⟩)

/-- So are the children of a node; what is no node has none. -/
theorem reach_childrenOf (fragment : Fragment) (own : NodeId) (rest : List NodeId) :
    Prod.Lex (· < ·) (· < ·) (fragment.reach (fragment.childrenOf own))
      (fragment.reach (own :: rest)) := by
  rw [reach, reach, childrenOf, trees_cons, tree?_eq, Prod.lex_def]
  cases fragment.slots[own]? with
  | none =>
    refine (Nat.eq_zero_or_pos (weightAll (fragment.trees rest))).symm.imp (fun some => ?_) ?_
    · exact some
    · exact fun none => ⟨none.symm, Nat.succ_pos _⟩
  | some slot =>
    left
    exact Nat.lt_of_lt_of_eq (weightAll_children_lt (.node own slot.content _) _) rfl

/-- **Visits some siblings in order.** A node opens; unless the callback says otherwise, its
children are visited, it closes, and the next sibling follows. -/
def recurse (fragment : Fragment) (callback : σ → Report → σ × Action) (parent : Option NodeId)
    (state : σ) : List NodeId → Course σ
  | [] => ⟨[], state, none⟩
  | own :: rest =>
    let opens : Report := ⟨own, parent, true⟩
    let closes : Report := ⟨own, parent, false⟩
    match callback state opens with
    | (opened, .stop) => ⟨[opens], opened, some own⟩
    | (opened, .skip) => (fragment.recurse callback parent opened rest).after [opens]
    | (opened, .leave) =>
      match callback opened closes with
      | (closed, .stop) => ⟨[opens, closes], closed, some own⟩
      | (closed, _) => ⟨[opens, closes], closed, none⟩
    | (opened, .descend) =>
      match fragment.recurse callback (some own) opened (fragment.childrenOf own) with
      | ⟨below, final, some found⟩ => ⟨opens :: below, final, some found⟩
      | ⟨below, final, none⟩ =>
        match callback final closes with
        | (closed, .stop) => ⟨opens :: (below ++ [closes]), closed, some own⟩
        | (closed, .leave) => ⟨opens :: (below ++ [closes]), closed, none⟩
        | (closed, _) =>
          (fragment.recurse callback parent closed rest).after (opens :: (below ++ [closes]))
termination_by ids => fragment.reach ids
decreasing_by
  · exact fragment.reach_rest own rest
  · exact fragment.reach_childrenOf own rest
  · exact fragment.reach_rest own rest

/-- What a callback answers is what its visitor answers, with one more entry in the log. -/
theorem logged_told {callback : σ → Report → σ × Action} {state next : σ} {action : Action}
    {node : Tree} {parent : Option Tree} {isOpening : Bool}
    (answer : callback state ⟨node.id, parent.map Tree.id, isOpening⟩ = (next, action))
    (log : List (σ × Visit)) :
    logged (told callback) (state, log) ⟨node, parent, isOpening⟩ =
      ((next, log ++ [(state, ⟨node, parent, isOpening⟩)]), action) := by
  rw [logged, told, Visit.report, answer]

/-- **A node that is entered is visited with its children**, and then it closes. -/
theorem exists_entered {fragment : Fragment} {callback : σ → Report → σ × Action}
    {state opened final : σ} {node : Tree} {parent : Option Tree} {log : List (σ × Visit)}
    {below : List Report} {stopped : Option NodeId}
    (answer : callback state ⟨node.id, parent.map Tree.id, true⟩ = (opened, .descend))
    (children : node.children = fragment.trees (fragment.childrenOf node.id))
    (entered : ∀ noted, Course.ofLogged (traverseAll (logged (told callback)) (some node)
        (opened, noted) (fragment.trees (fragment.childrenOf node.id))) =
      Course.after (reportsOf noted) ⟨below, final, stopped⟩) (rest : List Tree) :
    ∃ noted halted,
      reportsOf noted = reportsOf log ++ ⟨node.id, parent.map Tree.id, true⟩ :: below ∧
      halted.map Tree.id = stopped ∧
      traverseAll (logged (told callback)) parent (state, log) (node :: rest) =
        andThen ((final, noted), halted) fun below =>
          match logged (told callback) below ⟨node, parent, false⟩ with
          | (closed, .stop) => (closed, some node)
          | (closed, .leave) => (closed, none)
          | (closed, .descend) | (closed, .skip) =>
            traverseAll (logged (told callback)) parent closed rest := by
  obtain ⟨noted, halted, walked, reports, stops⟩ :=
    Course.exists_of_ofLogged (entered (log ++ [(state, ⟨node, parent, true⟩)]))
  refine ⟨noted, halted, ?_, stops, ?_⟩
  · rw [reports]
    simp [Visit.report]
  · rw [traverseAll_of_descend (logged_told answer log), children, walked]
    refine congrArg (andThen _) (funext fun below => ?_)
    cases logged (told callback) below ⟨node, parent, false⟩ with
    | mk closed action => cases action <;> rfl

/-- **A traversal of the trees of some nodes takes the course of the recursion.** -/
theorem ofLogged_traverseAll {fragment : Fragment} (bounded : fragment.Bounded)
    (callback : σ → Report → σ × Action) {ids : List NodeId}
    (present : ∀ id ∈ ids, id < fragment.size) (parent : Option Tree) (state : σ)
    (log : List (σ × Visit)) :
    Course.ofLogged (traverseAll (logged (told callback)) parent (state, log)
        (fragment.trees ids)) =
      (fragment.recurse callback (parent.map Tree.id) state ids).after (reportsOf log) := by
  generalize above : parent.map Tree.id = owner
  fun_induction recurse fragment callback owner state ids generalizing parent log with
  | case1 =>
    show Course.ofLogged (traverseAll _ _ _ []) = _
    rw [traverseAll_nil, Course.after, List.append_nil]
    rfl
  | case2 owner state own rest opens opened answer =>
    obtain ⟨node, split, rfl, _⟩ := exists_trees_cons (present own List.mem_cons_self) rest
    subst above
    rw [split, traverseAll_of_stop (logged_told answer log)]
    simp [Course.ofLogged, Course.after, Visit.report, opens]
  | case3 owner state own rest opens opened answer later =>
    obtain ⟨node, split, rfl, _⟩ := exists_trees_cons (present own List.mem_cons_self) rest
    subst above
    rw [split, traverseAll_of_skip (logged_told answer log),
      later (fun id member => present id (List.mem_cons_of_mem _ member)) parent _ rfl]
    simp [Visit.report, opens]
  | case4 owner state own rest opens closes opened answer closed closing =>
    obtain ⟨node, split, rfl, _⟩ := exists_trees_cons (present own List.mem_cons_self) rest
    subst above
    rw [split, traverseAll_of_leave (logged_told answer log), logged_told closing]
    simp [Course.ofLogged, Course.after, Visit.report, opens, closes]
  | case5 owner state own rest opens closes opened answer closed action unstopped closing =>
    obtain ⟨node, split, rfl, _⟩ := exists_trees_cons (present own List.mem_cons_self) rest
    subst above
    rw [split, traverseAll_of_leave (logged_told answer log), logged_told closing]
    cases action with
    | stop => exact absurd rfl unstopped
    | _ => simp [Course.ofLogged, Course.after, Visit.report, opens, closes]
  | case6 owner state own rest opens opened answer below final found recursed inner =>
    obtain ⟨node, split, rfl, children⟩ := exists_trees_cons (present own List.mem_cons_self) rest
    subst above
    rw [recursed] at inner
    obtain ⟨noted, halted, reports, stopped, walked⟩ := exists_entered answer children
      (fun noted => inner (bounded.childrenOf node.id) (some node) noted rfl) (fragment.trees rest)
    obtain ⟨last, rfl, same⟩ := Option.map_eq_some_iff.mp stopped
    rw [split, walked]
    simp [Course.ofLogged, Course.after, andThen, reports, same, opens]
  | case7 owner state own rest opens closes opened answer below final recursed closed closing
      inner =>
    obtain ⟨node, split, rfl, children⟩ := exists_trees_cons (present own List.mem_cons_self) rest
    subst above
    rw [recursed] at inner
    obtain ⟨noted, halted, reports, stopped, walked⟩ := exists_entered answer children
      (fun noted => inner (bounded.childrenOf node.id) (some node) noted rfl) (fragment.trees rest)
    cases Option.map_eq_none_iff.mp stopped
    rw [split, walked, andThen_none, logged_told closing]
    simp [Course.ofLogged, Course.after, reports, Visit.report, opens, closes]
  | case8 owner state own rest opens closes opened answer below final recursed closed closing
      inner =>
    obtain ⟨node, split, rfl, children⟩ := exists_trees_cons (present own List.mem_cons_self) rest
    subst above
    rw [recursed] at inner
    obtain ⟨noted, halted, reports, stopped, walked⟩ := exists_entered answer children
      (fun noted => inner (bounded.childrenOf node.id) (some node) noted rfl) (fragment.trees rest)
    cases Option.map_eq_none_iff.mp stopped
    rw [split, walked, andThen_none, logged_told closing]
    simp [Course.ofLogged, Course.after, reports, Visit.report, opens, closes]
  | case9 owner state own rest opens closes opened answer below final recursed closed action
      unstopped unleft closing inner later =>
    obtain ⟨node, split, rfl, children⟩ := exists_trees_cons (present own List.mem_cons_self) rest
    subst above
    rw [recursed] at inner
    obtain ⟨noted, halted, reports, stopped, walked⟩ := exists_entered answer children
      (fun noted => inner (bounded.childrenOf node.id) (some node) noted rfl) (fragment.trees rest)
    cases Option.map_eq_none_iff.mp stopped
    have onward := later (fun id member => present id (List.mem_cons_of_mem _ member)) parent
    rw [split, walked, andThen_none, logged_told closing]
    cases action with
    | stop => exact absurd rfl unstopped
    | leave => exact absurd rfl unleft
    | _ => simp [onward, reports, Visit.report, opens, closes]

/-- **A walk of some nodes takes the course of the recursion**, whatever its callback answers. -/
theorem course_eq_recurse {fragment : Fragment} (bounded : fragment.Bounded)
    (callback : σ → Report → σ × Action) (state : σ) {ids : List NodeId}
    (present : ∀ id ∈ ids, id < fragment.size) :
    fragment.course callback state ids = fragment.recurse callback none state ids := by
  have walked := ofLogged_traverseAll bounded callback present none state []
  rw [traverseAll_logged, List.nil_append, ← asked_eq_askedAll, ← walk_eq_traverseAll] at walked
  exact walked

end Fragment

/-! ### Nested reports -/

/-- **Openings and closings in pairs**, one inside the other: a node is the parent of those that open
between its opening and its closing. -/
inductive WellNested : Option NodeId → List Report → Prop
  | nil {parent : Option NodeId} : WellNested parent []
  | node {parent : Option NodeId} {own : NodeId} {inner rest : List Report} :
      WellNested (some own) inner → WellNested parent rest →
      WellNested parent (⟨own, parent, true⟩ :: (inner ++ ⟨own, parent, false⟩ :: rest))

/-- The nodes that open, in order. -/
def openings (reports : List Report) : List NodeId :=
  (reports.filter Report.isOpening).map Report.node

/-- The nodes that close, in order. -/
def closings (reports : List Report) : List NodeId :=
  (reports.filter fun report => !report.isOpening).map Report.node

theorem openings_append (first second : List Report) :
    openings (first ++ second) = openings first ++ openings second := by
  rw [openings, List.filter_append, List.map_append]
  rfl

theorem closings_append (first second : List Report) :
    closings (first ++ second) = closings first ++ closings second := by
  rw [closings, List.filter_append, List.map_append]
  rfl

/-- The openings of a node and what follows it. -/
theorem openings_node (own : NodeId) (parent : Option NodeId) (inner rest : List Report) :
    openings (⟨own, parent, true⟩ :: (inner ++ ⟨own, parent, false⟩ :: rest)) =
      own :: (openings inner ++ openings rest) := by
  show own :: openings (inner ++ ⟨own, parent, false⟩ :: rest) = _
  rw [openings_append]
  rfl

/-- What opens closes as often. -/
theorem WellNested.closings_perm {parent : Option NodeId} {reports : List Report}
    (nested : WellNested parent reports) : (closings reports).Perm (openings reports) := by
  induction nested with
  | nil => exact List.Perm.refl _
  | @node parent own inner rest _ _ inside later =>
    have closes : closings (⟨own, parent, true⟩ :: (inner ++ ⟨own, parent, false⟩ :: rest)) =
        closings inner ++ own :: closings rest := closings_append inner _
    rw [closes, openings_node]
    exact List.perm_middle.trans ((inside.append later).cons own)

namespace Fragment

/-- **A recursion that is never turned aside** opens and closes all nodes, in document order. -/
theorem recurse_of_descends {fragment : Fragment} (bounded : fragment.Bounded)
    {callback : σ → Report → σ × Action}
    (descends : ∀ state report, (callback state report).2 = .descend) (parent : Option NodeId)
    (state : σ) {ids : List NodeId} (present : ∀ id ∈ ids, id < fragment.size) :
    (fragment.recurse callback parent state ids).stopped = none ∧
      WellNested parent (fragment.recurse callback parent state ids).reports ∧
      openings (fragment.recurse callback parent state ids).reports =
        idsAll (fragment.trees ids) := by
  have never : ∀ {state report next action}, callback state report = (next, action) →
      action = .descend := by
    intro state report next action answer
    rw [← descends state report, answer]
  fun_induction recurse fragment callback parent state ids with
  | case1 => exact ⟨rfl, .nil, idsAll_nil.symm⟩
  | case2 _ _ _ _ _ _ answer => cases never answer
  | case3 _ _ _ _ _ _ answer => cases never answer
  | case4 _ _ _ _ _ _ _ answer => cases never answer
  | case5 _ _ _ _ _ _ _ answer => cases never answer
  | case6 _ _ own _ _ _ _ _ _ _ recursed inner =>
    rw [recursed] at inner
    cases (inner (bounded.childrenOf own)).1
  | case7 _ _ _ _ _ _ _ _ _ _ _ _ closing => cases never closing
  | case8 _ _ _ _ _ _ _ _ _ _ _ _ closing => cases never closing
  | case9 parent state own rest opens closes _ _ below final recursed _ _ _ _ _ inner later =>
    obtain ⟨node, split, same, children⟩ := exists_trees_cons (present own List.mem_cons_self) rest
    rw [recursed] at inner
    obtain ⟨_, nested, opened⟩ := inner (bounded.childrenOf own)
    obtain ⟨stopped, after, others⟩ :=
      later fun id member => present id (List.mem_cons_of_mem _ member)
    have whole : ∀ reports, opens :: (below ++ [closes]) ++ reports =
        opens :: (below ++ closes :: reports) := by
      intro reports
      rw [List.cons_append, List.append_assoc, List.singleton_append]
    refine ⟨stopped, ?_, ?_⟩
    · rw [Course.after, whole]
      exact .node nested after
    · rw [Course.after, whole, openings_node, opened, others, split, idsAll_cons, same, children]

/-- Whether some nodes stand side by side, as roots or below one node. -/
def Siblings (fragment : Fragment) (ids : List NodeId) : Prop :=
  ids <:+: fragment.roots ∨ ∃ own, ids <:+: fragment.childrenOf own

theorem Siblings.present {fragment : Fragment} (bounded : fragment.Bounded) {ids : List NodeId}
    (siblings : fragment.Siblings ids) : ∀ id ∈ ids, id < fragment.size := by
  intro id member
  rcases siblings with inside | ⟨own, inside⟩
  · exact bounded.roots id (inside.subset member)
  · exact bounded.childrenOf own id (inside.subset member)

/-- The trees of a part of a list are a part of its trees. -/
theorem trees_infix (fragment : Fragment) {ids all : List NodeId} (inside : ids <:+: all) :
    fragment.trees ids <:+: fragment.trees all := by
  obtain ⟨before, after, rfl⟩ := inside
  rw [trees_append, trees_append]
  exact ⟨_, _, rfl⟩

/-- **No id occurs twice below some siblings** of a grown fragment. -/
theorem Siblings.distinct {fragment : Fragment} (grown : fragment.Grown) {ids : List NodeId}
    (siblings : fragment.Siblings ids) : Distinct (fragment.trees ids) := by
  have part : ∀ {all}, Distinct (fragment.trees all) → ids <:+: all →
      Distinct (fragment.trees ids) := by
    intro all distinct inside
    obtain ⟨before, after, same⟩ := fragment.trees_infix inside
    rw [← same] at distinct
    exact distinct.append.1.append.2.1
  rcases siblings with inside | ⟨own, inside⟩
  · exact part grown.distinct inside
  · by_cases present : own < fragment.size
    · have member : own ∈ idsAll fragment.rootTrees :=
        grown.idsAll_perm.mem_iff.mpr (List.mem_range.mpr present)
      obtain ⟨tree, within, rfl⟩ := List.mem_map.mp member
      obtain ⟨slot, found, _, children⟩ := slot_of_mem_subtreesAll within
      refine part ?_ inside
      rw [childrenOf, found]
      show Distinct (fragment.trees slot.children)
      rw [← children]
      exact grown.distinct.children within
    · have absent : fragment.slots[own]? = none := Array.getElem?_eq_none (Nat.le_of_not_lt present)
      rw [childrenOf, absent] at inside
      rw [List.infix_nil.mp inside]
      exact List.nodup_nil

end Fragment

/-- **A walk of a fragment refines the recursion over its nodes**: it tells its callback the same
events in the same order and ends with the same state and at the same node, whatever the callback
answers. From siblings on, a callback that always descends is told of the opening and of the closing
of every node below them once, well nested and in document order. -/
theorem course_refines_recurse {fragment : Fragment} (grown : fragment.Grown) :
    (∀ {σ : Type} (callback : σ → Report → σ × Action) (state : σ) (ids : List NodeId),
      (∀ id ∈ ids, id < fragment.size) →
        fragment.course callback state ids = fragment.recurse callback none state ids) ∧
    ∀ {σ : Type} (callback : σ → Report → σ × Action) (state : σ) (ids : List NodeId),
      fragment.Siblings ids → (∀ state report, (callback state report).2 = .descend) →
        let course := fragment.course callback state ids
        course.stopped = none ∧ WellNested none course.reports ∧
          openings course.reports = idsAll (fragment.trees ids) ∧
          (openings course.reports).Nodup ∧
          (closings course.reports).Perm (openings course.reports) := by
  have bounded := grown.bounded
  have recursion : ∀ {σ : Type} (callback : σ → Report → σ × Action) (state : σ)
      (ids : List NodeId), (∀ id ∈ ids, id < fragment.size) →
        fragment.course callback state ids = fragment.recurse callback none state ids :=
    fun callback state ids present => Fragment.course_eq_recurse bounded callback state present
  refine ⟨recursion, fun callback state ids siblings descends => ?_⟩
  have present := siblings.present bounded
  obtain ⟨stopped, nested, opened⟩ :=
    Fragment.recurse_of_descends bounded descends none state present
  rw [recursion callback state ids present]
  refine ⟨stopped, nested, opened, ?_, nested.closings_perm⟩
  rw [opened]
  exact siblings.distinct grown

/-- Counts what it is told, and leaves siblings at the opening of node 1. -/
def leavingFirst (count : Nat) (report : Report) : Nat × Action :=
  (count + 1, if report.node = 1 ∧ report.isOpening then .leave else .descend)

/-- Two elements in one before a text: what is left is the second element, and below the first one
every node is visited. -/
theorem course_refines_recurse_leaving : ∃ fragment,
    parse "<a><b>x</b><c></c></a>y" = .ok fragment ∧
      fragment.recurse leavingFirst none 0 [0, 4] =
        ⟨[⟨0, none, true⟩, ⟨1, some 0, true⟩, ⟨1, some 0, false⟩, ⟨0, none, false⟩,
          ⟨4, none, true⟩, ⟨4, none, false⟩], 6, none⟩ ∧
      fragment.Siblings [1, 3] ∧
      openings (fragment.course (fun _ _ => ((), .descend)) () [1, 3]).reports = [1, 2, 3] := by
  have reads : ((parse "<a><b>x</b><c></c></a>y").toOption.any fun fragment : Fragment => decide (
      fragment.size = 5 ∧ fragment.childrenOf 0 = [1, 3] ∧
      idsAll (fragment.trees [1, 3]) = [1, 2, 3] ∧
      fragment.course leavingFirst 0 [0, 4] =
        ⟨[⟨0, none, true⟩, ⟨1, some 0, true⟩, ⟨1, some 0, false⟩, ⟨0, none, false⟩,
          ⟨4, none, true⟩, ⟨4, none, false⟩], 6, none⟩)) = true := by decide +kernel
  obtain ⟨fragment, parsed, tested⟩ := exists_of_parse_any reads
  obtain ⟨size, children, below, course⟩ := of_decide_eq_true tested
  obtain ⟨recursion, descent⟩ := course_refines_recurse (grown_of_parse parsed)
  have siblings : fragment.Siblings [1, 3] := Or.inr ⟨0, children ▸ List.infix_rfl⟩
  refine ⟨fragment, parsed, ?_, siblings, ?_⟩
  · rw [← recursion leavingFirst 0 [0, 4] (by rw [size]; decide)]
    exact course
  · rw [← below]
    exact (descent (fun _ _ => ((), .descend)) () [1, 3] siblings fun _ _ => rfl).2.2.1

end DataBind.Markup
