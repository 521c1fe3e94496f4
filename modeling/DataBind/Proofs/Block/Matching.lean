/-
**Matching markers is bracket matching.**

One stack of open blocks serves all sibling lists of a forest, and still every list is matched for
itself: a start marker that its own list leaves open stays on the stack to the end.

* `matchSiblings_of_pairs`: in a nested forest the blocks are found in the order of their ends;
* `accounted_of_leafy`: matching finds a list nested, or leaves a start marker behind for good;
* `nested_of_matchBlocks`: matching succeeds for nested forests only;
* `matchBlocks_of_pairs`: what matching gives for them;
* `matchBlocks_sound`: start markers, end markers, bodies and nesting of the blocks found.
-/

import DataBind.Proofs.Block.Pairing
import DataBind.Proofs.Markup.Growth
import DataBind.Proofs.Markup.Traversal

namespace DataBind.Block

open Markup Markup.Tree

variable {config : Config} {forest : List Tree}

/-! ### Single steps -/

/-- Matching in siblings below a parent. -/
def matchSiblings (config : Config) (forest : List Tree) (parent : Option Tree) (state : Matching)
    (nodes : List Tree) : Matching × Option Tree :=
  traverseAll (matchVisit config forest) parent state nodes

/-- The siblings below a parent. -/
def siblingsOf (forest : List Tree) (parent : Option Tree) : List Tree :=
  (parent.map children).getD forest

/-- The block that an end marker ends. -/
def closed (forest : List Tree) (parent : Option Tree) (innermost : Unclosed) (finish : Tree) :
    Block :=
  ⟨innermost.binding, innermost.start.id, finish.id,
    siblingsBetween (siblingsOf forest parent) innermost.start.id finish.id⟩

theorem matchVisit_opening (state : Matching) (node : Tree) (parent : Option Tree) :
    matchVisit config forest state ⟨node, parent, true⟩ =
      match directive? config node with
      | none => (state, .descend)
      | some (.opening binding) =>
        ({ state with unclosed := ⟨binding, node, parent.map Tree.id⟩ :: state.unclosed }, .descend)
      | some .closing => close forest state ⟨node, parent, true⟩ := by
  rw [matchVisit]
  rfl

theorem matchVisit_closing (state : Matching) (node : Tree) (parent : Option Tree) :
    matchVisit config forest state ⟨node, parent, false⟩ = (state, .descend) := by
  rw [matchVisit]
  rfl

theorem matchVisit_ne_leave (state : Matching) (visit : Visit) :
    (matchVisit config forest state visit).2 ≠ .leave := by
  unfold matchVisit close
  split
  · simp
  · split
    · simp
    · simp
    · split
      · simp
      · split <;> simp

@[simp] theorem matchSiblings_nil (parent : Option Tree) (state : Matching) :
    matchSiblings config forest parent state [] = (state, none) :=
  traverseAll_nil _ _ _

theorem matchSiblings_append (parent : Option Tree) (state : Matching) (first second : List Tree) :
    matchSiblings config forest parent state (first ++ second) =
      andThen (matchSiblings config forest parent state first) fun after =>
        matchSiblings config forest parent after second :=
  traverseAll_append matchVisit_ne_leave parent state first second

/-- A node at which matching does not stop is entered before its later siblings. -/
theorem matchSiblings_of_descend {parent : Option Tree} {state : Matching} {node : Tree}
    (opened : Matching)
    (entered : matchVisit config forest state ⟨node, parent, true⟩ = (opened, .descend))
    (rest : List Tree) :
    matchSiblings config forest parent state (node :: rest) =
      andThen (matchSiblings config forest (some node) opened node.children) fun after =>
        matchSiblings config forest parent after rest := by
  unfold matchSiblings
  rw [traverseAll_of_descend entered rest]
  simp only [matchVisit_closing]

variable {parent : Option Tree} {state : Matching} {node : Tree}

/-- A plain node changes nothing itself. -/
theorem matchSiblings_plain (plain : directive? config node = none) (rest : List Tree) :
    matchSiblings config forest parent state (node :: rest) =
      andThen (matchSiblings config forest (some node) state node.children) fun after =>
        matchSiblings config forest parent after rest := by
  refine matchSiblings_of_descend state ?_ rest
  rw [matchVisit_opening, plain]

/-- A start marker is put on the stack. -/
theorem matchSiblings_start {binding : Binding}
    (opening : directive? config node = some (.opening binding)) (leaf : node.children = [])
    (rest : List Tree) :
    matchSiblings config forest parent state (node :: rest) =
      matchSiblings config forest parent
        { state with unclosed := ⟨binding, node, parent.map Tree.id⟩ :: state.unclosed } rest := by
  rw [matchSiblings_of_descend { state with
      unclosed := ⟨binding, node, parent.map Tree.id⟩ :: state.unclosed } _ rest, leaf]
  · rw [matchSiblings_nil, andThen_none]
  · rw [matchVisit_opening, opening]

/-- An end marker outside of every block is warned about. -/
theorem matchSiblings_dangling (closing : directive? config node = some .closing)
    (leaf : node.children = []) (outside : state.unclosed = []) (rest : List Tree) :
    matchSiblings config forest parent state (node :: rest) =
      matchSiblings config forest parent
        { state with warnings := state.warnings ++ [.danglingEnd (markerText node)] } rest := by
  rw [matchSiblings_of_descend { state with
      warnings := state.warnings ++ [.danglingEnd (markerText node)] } _ rest, leaf]
  · rw [matchSiblings_nil, andThen_none]
  · rw [matchVisit_opening, closing]
    simp only [close, outside]

/-- An end marker ends the innermost open block of its own siblings. -/
theorem matchSiblings_finish (closing : directive? config node = some .closing)
    (leaf : node.children = []) {innermost : Unclosed} {outer : List Unclosed}
    (pending : state.unclosed = innermost :: outer) (own : innermost.parent = parent.map Tree.id)
    (rest : List Tree) :
    matchSiblings config forest parent state (node :: rest) =
      matchSiblings config forest parent
        { state with
          unclosed := outer
          index := state.index.insert (closed forest parent innermost node) } rest := by
  rw [matchSiblings_of_descend { state with
      unclosed := outer
      index := state.index.insert (closed forest parent innermost node) } _ rest, leaf]
  · rw [matchSiblings_nil, andThen_none]
  · rw [matchVisit_opening, closing]
    simp only [close, pending, own, if_true]
    rfl

/-- An end marker that meets a block of other siblings stops the matching. -/
theorem matchSiblings_unbalanced (closing : directive? config node = some .closing)
    {innermost : Unclosed} {outer : List Unclosed} (pending : state.unclosed = innermost :: outer)
    (foreign : innermost.parent ≠ parent.map Tree.id) (rest : List Tree) :
    matchSiblings config forest parent state (node :: rest) =
      ({ state with
          unclosed := outer
          error := some (.unbalancedBlock (markerText innermost.start)) }, some node) := by
  refine traverseAll_of_stop ?_ rest
  simp only [matchVisit_opening, closing, close, pending, if_neg foreign]

/-! ### Nested siblings -/

/-- What is strictly between two siblings of distinct ids. -/
theorem siblingsBetween_eq {before body after : List Tree} {start finish : Tree}
    (distinct : ((before ++ start :: (body ++ finish :: after)).map Tree.id).Nodup) :
    siblingsBetween (before ++ start :: (body ++ finish :: after)) start.id finish.id = body := by
  rw [List.map_append, List.map_cons, List.map_append, List.map_cons, List.nodup_append',
    List.nodup_cons, List.nodup_append'] at distinct
  obtain ⟨_, ⟨notLater, _, _, notBody⟩, notBefore⟩ := distinct
  have early : ∀ tree ∈ before, tree.id ≠ start.id := fun tree member same =>
    notBefore (List.mem_map_of_mem member) (same ▸ List.mem_cons_self)
  have outside : ∀ tree ∈ before ++ start :: body, tree.id ≠ finish.id := by
    intro tree member same
    have last : tree.id ∈ body.map Tree.id ++ finish.id :: after.map Tree.id := by simp [same]
    rcases List.mem_append.mp member with first | later
    · exact notBefore (List.mem_map_of_mem first) (List.mem_cons_of_mem _ last)
    · rcases List.mem_cons.mp later with rfl | inner
      · exact notLater last
      · exact notBody (List.mem_map_of_mem inner) (same ▸ List.mem_cons_self)
  have first : (before ++ start :: (body ++ finish :: after)).findIdx?
      (fun tree => tree.id == start.id) = some before.length := by
    rw [List.findIdx?_append, List.findIdx?_eq_none_iff.mpr (by simpa using early)]
    simp [List.findIdx?_cons]
  have last : (before ++ start :: (body ++ finish :: after)).findIdx?
      (fun tree => tree.id == finish.id) = some (before ++ start :: body).length := by
    rw [show before ++ start :: (body ++ finish :: after) =
      (before ++ start :: body) ++ finish :: after by simp, List.findIdx?_append,
      List.findIdx?_eq_none_iff.mpr (by simpa using outside)]
    simp [List.findIdx?_cons]
  unfold siblingsBetween
  rw [first, last]
  simp only
  rw [show before ++ start :: (body ++ finish :: after) =
    (before ++ start :: body) ++ finish :: after by simp, List.take_left]
  simp

/-- What matching adds to its state in a nested forest. -/
def Matching.found (state : Matching) (blocks : List Block) (dangling : List Tree) : Matching :=
  { state with
    index := blocks.foldl Index.insert state.index
    warnings := state.warnings ++ dangling.map fun marker => .danglingEnd (markerText marker) }

theorem Matching.found_found (state : Matching) (first second : List Block)
    (early late : List Tree) :
    (state.found first early).found second late =
      state.found (first ++ second) (early ++ late) := by
  simp only [found, List.foldl_append, List.map_append, List.append_assoc]

/-- **In a nested forest the blocks are found**, whatever is open around it; end markers dangle
only where nothing is open. -/
theorem matchSiblings_of_pairs {loose : Bool} {nodes dangling : List Tree} {blocks : List Block}
    (pairs : Pairs config loose nodes blocks dangling) (parent : Option Tree) (state : Matching)
    (before after : List Tree) (here : siblingsOf forest parent = before ++ (nodes ++ after))
    (distinct : Distinct (siblingsOf forest parent))
    (outside : loose = true → state.unclosed = []) :
    matchSiblings config forest parent state nodes = (state.found blocks dangling, none) := by
  induction pairs generalizing parent state before after with
  | nil => simp [Matching.found]
  | @other _ node rest below blocks deeper dangling plain _ _ under later =>
    have inside : node ∈ subtreesAll (siblingsOf forest parent) :=
      mem_subtreesAll_of_mem (by rw [here]; simp)
    have children := under (some node) state [] []
      (by simp [siblingsOf]) (distinct.children inside) outside
    have others := later parent (state.found below deeper) (before ++ [node]) after
      (by rw [here]; simp) distinct outside
    rw [matchSiblings_plain plain, children, andThen_none, others, Matching.found_found]
  | @dangling node rest blocks dangling closing leaf _ later =>
    rw [matchSiblings_dangling closing leaf (outside rfl),
      later parent { state with
          warnings := state.warnings ++ [.danglingEnd (markerText node)] }
        (before ++ [node]) after (by rw [here]; simp) distinct outside]
    simp only [Matching.found, List.map_cons, List.append_assoc, List.singleton_append]
  | @block _ binding start finish body rest inner blocks dangling opening leaf closing last _ _
      inside later =>
    have opened : siblingsOf forest parent =
        before ++ start :: (body ++ finish :: (rest ++ after)) := by
      rw [here]
      simp
    have between : siblingsBetween (siblingsOf forest parent) start.id finish.id = body := by
      rw [opened]
      apply siblingsBetween_eq
      rw [← opened]
      exact List.Nodup.sublist (map_id_sublist _) distinct
    have ended : { state with
          index := ((state.found inner []).index).insert
            (closed forest parent ⟨binding, start, parent.map Tree.id⟩ finish)
          warnings := (state.found inner []).warnings } =
        state.found (inner ++ [⟨binding, start.id, finish.id, body⟩]) [] := by
      simp only [Matching.found, closed, between, List.foldl_append, List.foldl_cons,
        List.foldl_nil]
    rw [matchSiblings_start opening leaf, matchSiblings_append,
      inside parent _ (before ++ [start]) (finish :: (rest ++ after))
        (by rw [opened]; simp) distinct (by simp), andThen_none,
      matchSiblings_finish closing last rfl rfl]
    refine (congrArg (matchSiblings config forest parent · rest) ended).trans ?_
    rw [later parent (state.found (inner ++ [Block.mk binding start.id finish.id body]) [])
      (before ++ start :: (body ++ [finish])) after
      (by rw [opened]; simp) distinct outside, Matching.found_found]
    simp only [List.append_assoc, List.singleton_append, List.nil_append]

/-! ### Start markers that stay open -/

/-- The owners of the sibling lists in a part of a parent's children. -/
def owners (parent : Option Tree) (nodes : List Tree) : List (Option NodeId) :=
  parent.map Tree.id :: (idsAll nodes).map some

theorem owners_nodup (distinct : Distinct nodes) : (owners none nodes).Nodup := by
  rw [owners, List.nodup_cons]
  exact ⟨by simp, List.Nodup.map (fun _ _ => Option.some.inj) distinct⟩

theorem owners_cons_perm (parent : Option Tree) (node : Tree) (rest : List Tree) :
    (owners parent (node :: rest)).Perm
      (owners (some node) node.children ++ owners parent rest) := by
  rw [owners, idsAll_cons, List.map_cons, List.map_append]
  show (_ :: ((some node.id :: (idsAll node.children).map some) ++ _)).Perm _
  exact List.perm_middle.symm

/-- The owners at the first of some siblings, and those after it. -/
theorem owners_nodup_cons {parent : Option Tree} {node : Tree} {rest : List Tree}
    (distinct : (owners parent (node :: rest)).Nodup) :
    (owners (some node) node.children).Nodup ∧ (owners parent rest).Nodup ∧
      List.Disjoint (owners (some node) node.children) (owners parent rest) := by
  rw [(owners_cons_perm parent node rest).nodup_iff, List.nodup_append'] at distinct
  exact distinct

theorem mem_owners_cons {parent : Option Tree} {node : Tree} {rest : List Tree}
    {owner : Option NodeId} : owner ∈ owners parent (node :: rest) ↔
      owner ∈ owners (some node) node.children ∨ owner ∈ owners parent rest := by
  rw [(owners_cons_perm parent node rest).mem_iff, List.mem_append]

theorem parent_mem_owners (parent : Option Tree) (nodes : List Tree) :
    parent.map Tree.id ∈ owners parent nodes :=
  List.mem_cons_self

/-- **A start marker of other siblings stays on the stack**, unless matching stops. -/
theorem mem_unclosed_of_foreign {nodes : List Tree} (leafy : Leafy nodes) {parent : Option Tree}
    {state final : Matching}
    (passed : matchSiblings config forest parent state nodes = (final, none))
    {entry : Unclosed} (pending : entry ∈ state.unclosed)
    (foreign : entry.parent ∉ owners parent nodes) : entry ∈ final.unclosed := by
  induction nodes using forestInduction generalizing parent state final with
  | nil =>
    rw [matchSiblings_nil] at passed
    cases passed
    exact pending
  | cons id content children rest below later =>
    rw [mem_owners_cons, not_or] at foreign
    obtain ⟨notBelow, notLater⟩ := foreign
    cases said : directive? config (.node id content children) with
    | none =>
      rw [matchSiblings_plain said] at passed
      obtain ⟨middle, inner, passed⟩ := exists_of_andThen passed
      exact later leafy.cons.2 passed (below leafy.cons.1 inner pending notBelow) notLater
    | some word =>
      have leaf := children_of_directive leafy said
      cases word with
      | opening binding =>
        rw [matchSiblings_start said leaf] at passed
        exact later leafy.cons.2 passed (List.mem_cons_of_mem _ pending) notLater
      | closing =>
        cases stack : state.unclosed with
        | nil =>
          rw [stack] at pending
          cases pending
        | cons innermost outer =>
          by_cases own : innermost.parent = parent.map Tree.id
          · rw [matchSiblings_finish said leaf stack own] at passed
            refine later leafy.cons.2 passed ?_ notLater
            rw [stack] at pending
            rcases List.mem_cons.mp pending with rfl | kept
            · exact absurd (own ▸ parent_mem_owners parent rest) notLater
            · exact kept
          · rw [matchSiblings_unbalanced said stack own] at passed
            cases passed

/-- **The start markers of a sibling list are accounted for.** The stack holds the `own` open blocks
of the siblings on top of the `outer` ones of other lists. If matching passes the siblings, it has
found them nested and leaves the others open, or it leaves a start marker behind, of the list or of
one below it. -/
def Accounted (config : Config) (forest : List Tree) (parent : Option Tree) (nodes : List Tree) :
    Prop :=
  ∀ (state final : Matching) (own outer : List Unclosed), state.unclosed = own ++ outer →
    (∀ entry ∈ own, entry.parent = parent.map Tree.id) →
    (∀ entry ∈ outer, entry.parent ∉ owners parent nodes) →
    matchSiblings config forest parent state nodes = (final, none) →
    (nestedFrom config outer.isEmpty own.length nodes = true ∧ final.unclosed = outer) ∨
      ∃ entry ∈ final.unclosed, entry.parent ∈ owners parent nodes

namespace Accounted

variable {parent : Option Tree} {node : Tree} {rest : List Tree}

theorem nil (parent : Option Tree) : Accounted config forest parent [] := by
  intro state final own outer stack mine _ passed
  rw [matchSiblings_nil] at passed
  cases passed
  cases own with
  | nil => exact Or.inl ⟨rfl, stack⟩
  | cons entry others =>
    refine Or.inr ⟨entry, ?_, ?_⟩
    · rw [stack]
      exact List.mem_cons_self
    · rw [mine entry List.mem_cons_self]
      exact parent_mem_owners parent []

/-- What the siblings after a node make of the blocks that are open at its depth. -/
theorem after (later : Accounted config forest parent rest) {state final : Matching}
    (own : List Unclosed) {outer : List Unclosed} (stack : state.unclosed = own ++ outer)
    (mine : ∀ entry ∈ own, entry.parent = parent.map Tree.id)
    (foreign : ∀ entry ∈ outer, entry.parent ∉ owners parent (node :: rest))
    (passed : matchSiblings config forest parent state rest = (final, none)) :
    (nestedFrom config outer.isEmpty own.length rest = true ∧ final.unclosed = outer) ∨
      ∃ entry ∈ final.unclosed, entry.parent ∈ owners parent (node :: rest) := by
  have foreignRest : ∀ entry ∈ outer, entry.parent ∉ owners parent rest :=
    fun entry member inside => foreign entry member (mem_owners_cons.mpr (Or.inr inside))
  refine (later state final own outer stack mine foreignRest passed).imp_right ?_
  exact fun ⟨entry, left, inside⟩ => ⟨entry, left, mem_owners_cons.mpr (Or.inr inside)⟩

/-- A node that is no marker, whose children are another list. -/
theorem plain (said : directive? config node = none) (leafy : Leafy rest)
    (distinct : (owners parent (node :: rest)).Nodup)
    (below : Accounted config forest (some node) node.children)
    (later : Accounted config forest parent rest) :
    Accounted config forest parent (node :: rest) := by
  intro state final own outer stack mine foreign passed
  obtain ⟨_, _, disjoint⟩ := owners_nodup_cons distinct
  rw [matchSiblings_plain said] at passed
  obtain ⟨middle, inner, passed⟩ := exists_of_andThen passed
  have away : ∀ entry ∈ own ++ outer, entry.parent ∉ owners (some node) node.children := by
    intro entry member inside
    rcases List.mem_append.mp member with here | there
    · rw [mine entry here] at inside
      exact disjoint inside (parent_mem_owners parent rest)
    · exact foreign entry there (mem_owners_cons.mpr (Or.inl inside))
  rcases below state middle [] (own ++ outer) stack (by simp) away inner with
    ⟨nested, kept⟩ | ⟨entry, left, inside⟩
  · refine (later.after own kept mine foreign passed).imp_left fun ⟨others, done⟩ => ⟨?_, done⟩
    have same : (outer.isEmpty && own.length == 0) = (own ++ outer).isEmpty := by
      cases own <;> simp
    rw [nestedFrom_plain said, Bool.and_eq_true, same]
    exact ⟨nested, others⟩
  · exact Or.inr ⟨entry, mem_unclosed_of_foreign leafy passed left (disjoint inside),
      mem_owners_cons.mpr (Or.inl inside)⟩

/-- A start marker, which is open from here on. -/
theorem opening {binding : Binding} (said : directive? config node = some (.opening binding))
    (leaf : node.children = []) (later : Accounted config forest parent rest) :
    Accounted config forest parent (node :: rest) := by
  intro state final own outer stack mine foreign passed
  rw [matchSiblings_start said leaf] at passed
  have pushed := later.after (⟨binding, node, parent.map Tree.id⟩ :: own) (by rw [stack]; rfl)
    (List.forall_mem_cons.mpr ⟨rfl, mine⟩) foreign passed
  refine pushed.imp_left fun ⟨others, done⟩ => ⟨?_, done⟩
  rw [nestedFrom_opening said leaf]
  exact others

/-- An end marker, which ends the innermost block of its own list, dangles, or stops matching. -/
theorem closing (said : directive? config node = some .closing) (leaf : node.children = [])
    (later : Accounted config forest parent rest) :
    Accounted config forest parent (node :: rest) := by
  intro state final own outer stack mine foreign passed
  cases own with
  | cons innermost others =>
    obtain ⟨same, mine⟩ := List.forall_mem_cons.mp mine
    rw [matchSiblings_finish said leaf stack same] at passed
    refine (later.after others rfl mine foreign passed).imp_left fun ⟨nested, done⟩ => ⟨?_, done⟩
    rw [List.length_cons, nestedFrom_closing said leaf]
    exact nested
  | nil =>
    cases outer with
    | nil =>
      rw [matchSiblings_dangling said leaf stack] at passed
      have left := later.after [] (by exact stack) mine foreign passed
      refine left.imp_left fun ⟨nested, done⟩ => ⟨?_, done⟩
      rw [List.length_nil, nestedFrom_dangling said leaf]
      exact nested
    | cons innermost others =>
      have other : innermost.parent ≠ parent.map Tree.id := fun same =>
        foreign innermost List.mem_cons_self (same ▸ parent_mem_owners parent _)
      rw [matchSiblings_unbalanced said stack other] at passed
      cases passed

end Accounted

/-- **Matching finds a sibling list nested, or leaves one of its start markers behind.** -/
theorem accounted_of_leafy {nodes : List Tree} (leafy : Leafy nodes) {parent : Option Tree}
    (distinct : (owners parent nodes).Nodup) : Accounted config forest parent nodes := by
  induction nodes using forestInduction generalizing parent with
  | nil => exact .nil parent
  | cons id content children rest below later =>
    obtain ⟨distinctBelow, distinctLater, _⟩ := owners_nodup_cons distinct
    have others := later leafy.cons.2 distinctLater
    cases said : directive? config (.node id content children) with
    | none =>
      exact .plain said leafy.cons.2 distinct (below leafy.cons.1 distinctBelow) others
    | some word =>
      have leaf := children_of_directive leafy said
      cases word with
      | opening binding => exact .opening said leaf others
      | closing => exact .closing said leaf others

/-- Matching has stopped exactly if it has found an error. -/
theorem isSome_error_matchSiblings {nodes : List Tree} (leafy : Leafy nodes)
    (parent : Option Tree) {state : Matching} (clean : state.error = none) :
    (matchSiblings config forest parent state nodes).1.error.isSome =
      (matchSiblings config forest parent state nodes).2.isSome := by
  induction nodes using forestInduction generalizing parent state with
  | nil =>
    rw [matchSiblings_nil, clean]
    rfl
  | cons id content children rest below later =>
    cases said : directive? config (.node id content children) with
    | none =>
      rw [matchSiblings_plain said]
      have inner := below leafy.cons.1 (some (.node id content children)) clean
      simp only [Tree.children]
      cases result : matchSiblings config forest (some (.node id content children)) state
          children with
      | mk middle halted =>
        rw [result] at inner
        cases halted with
        | some node => exact inner
        | none => exact later leafy.cons.2 parent (by simpa using inner)
    | some word =>
      have leaf := children_of_directive leafy said
      cases word with
      | opening binding =>
        rw [matchSiblings_start said leaf]
        exact later leafy.cons.2 parent clean
      | closing =>
        cases stack : state.unclosed with
        | nil =>
          rw [matchSiblings_dangling said leaf stack]
          exact later leafy.cons.2 parent clean
        | cons innermost outer =>
          by_cases own : innermost.parent = parent.map Tree.id
          · rw [matchSiblings_finish said leaf stack own]
            exact later leafy.cons.2 parent clean
          · rw [matchSiblings_unbalanced said stack own]
            rfl

/-! ### Whole forests -/

theorem matchBlocks_eq (config : Config) (nodes : List Tree) :
    matchBlocks config nodes =
      let state := (matchSiblings config nodes none .start nodes).1
      match state.error, state.unclosed with
      | some error, _ => ⟨state.warnings, .error error⟩
      | none, innermost :: _ =>
        ⟨state.warnings, .error (.unclosedBlock (markerText innermost.start))⟩
      | none, [] => ⟨state.warnings, .ok state.index⟩ := by
  rw [matchBlocks, walk_eq_traverseAll]
  rfl

/-- **Matching succeeds for nested forests only.** -/
theorem nested_of_matchBlocks {nodes : List Tree} (distinct : Distinct nodes) (leafy : Leafy nodes)
    {index : Index} (success : (matchBlocks config nodes).result = .ok index) :
    Nested config true nodes := by
  have stopped : (matchSiblings config nodes none .start nodes).1.error.isSome =
      (matchSiblings config nodes none .start nodes).2.isSome :=
    isSome_error_matchSiblings leafy none rfl
  rw [matchBlocks_eq] at success
  cases result : matchSiblings config nodes none .start nodes with
  | mk final halted =>
    rw [result] at success stopped
    simp only at success stopped
    split at success
    · cases success
    · cases success
    · rename_i clean empty
      rw [clean] at stopped
      cases halted with
      | some node => cases stopped
      | none =>
        rcases accounted_of_leafy leafy (owners_nodup distinct) .start final [] [] rfl
          (by simp) (by simp) result with ⟨nested, _⟩ | ⟨entry, left, _⟩
        · exact nested
        · rw [empty] at left
          cases left

/-- Blocks of distinct start markers replace each other nowhere. -/
theorem blocks_foldl_insert {blocks : List Block}
    (apart : blocks.Pairwise fun first second => first.start ≠ second.start) (index : Index)
    (fresh : ∀ block ∈ blocks, ∀ known ∈ index.blocks, known.start ≠ block.start) :
    (blocks.foldl Index.insert index).blocks = blocks.reverse ++ index.blocks := by
  induction blocks generalizing index with
  | nil => rfl
  | cons block rest ih =>
    obtain ⟨head, tail⟩ := List.pairwise_cons.mp apart
    have kept : (index.insert block).blocks = block :: index.blocks := by
      show block :: index.blocks.filter _ = _
      congr 1
      refine List.filter_eq_self.mpr fun known member => ?_
      rw [bne_iff_ne]
      exact fresh block List.mem_cons_self known member
    rw [List.foldl_cons, ih tail (index.insert block), kept]
    · simp
    · intro later member known found
      rw [kept] at found
      rcases List.mem_cons.mp found with rfl | old
      · exact head later member
      · exact fresh later (List.mem_cons_of_mem _ member) known old

/-- **What matching gives for a nested forest**: its blocks, the last one first, and a warning for
each end marker that ends none. -/
theorem matchBlocks_of_pairs {nodes dangling : List Tree} {blocks : List Block}
    (distinct : Distinct nodes) (pairs : Pairs config true nodes blocks dangling) :
    matchBlocks config nodes =
      ⟨(unpaired config blocks nodes).map fun marker => .danglingEnd (markerText marker),
        .ok ⟨blocks.reverse⟩⟩ := by
  have run : matchSiblings config nodes none .start nodes = (_, none) :=
    matchSiblings_of_pairs pairs none .start [] [] (by simp [siblingsOf]) distinct fun _ => rfl
  have starts : blocks.Pairwise fun first second => first.start ≠ second.start :=
    (pairs.markers_ne distinct).imp fun apart => apart.1
  have found := blocks_foldl_insert starts .empty (by simp [Index.empty])
  rw [show (Index.empty).blocks = [] from rfl, List.append_nil] at found
  rw [matchBlocks_eq, run, ← pairs.dangling_eq distinct, ← found]
  rfl

/-- The blocks found in a forest are as they should be. -/
structure Sound (config : Config) (nodes : List Tree) (matched : Checked Index) (index : Index) :
    Prop where
  /-- Every start marker starts exactly one block. -/
  starts : ∀ node ∈ subtreesAll nodes, ∀ binding, directive? config node = some (.opening binding) →
    ∃! block, block ∈ index.blocks ∧ block.start = node.id
  /-- A block is a part of one sibling list: its start marker, its body and its end marker. -/
  placed : ∀ block ∈ index.blocks, ∃ level ∈ levels nodes, ∃ before start finish after,
    level = before ++ start :: (block.body ++ finish :: after) ∧
      block.start = start.id ∧ block.finish = finish.id ∧
      directive? config start = some (.opening block.binding) ∧
      directive? config finish = some .closing
  /-- No two blocks share a start marker or an end marker. -/
  markers : index.blocks.Pairwise fun first second =>
    first.start ≠ second.start ∧ first.finish ≠ second.finish
  /-- The end markers that end no block are warned about, in document order. -/
  dangling : matched.warnings =
    (unpaired config index.blocks nodes).map fun marker => .danglingEnd (markerText marker)
  /-- Two blocks are disjoint, or one lies inside the body of the other. -/
  apart : index.blocks.Pairwise Apart

/-- **Block matching is sound** for every fragment for which it succeeds. -/
theorem matchBlocks_sound (config : Config) (fragment : Fragment) (grown : fragment.Grown)
    (index : Index) (success : (matchBlocks config fragment.rootTrees).result = .ok index) :
    Sound config fragment.rootTrees (matchBlocks config fragment.rootTrees) index := by
  obtain ⟨blocks, dangling, pairs, _⟩ := exists_pairs_of_nested grown.leafy
    (nested_of_matchBlocks grown.distinct grown.leafy success)
  have given := matchBlocks_of_pairs grown.distinct pairs
  rw [given] at success ⊢
  cases success
  have markers : blocks.reverse.Pairwise fun first second =>
      first.start ≠ second.start ∧ first.finish ≠ second.finish := by
    rw [List.pairwise_reverse]
    exact (pairs.markers_ne grown.distinct).imp fun apart => ⟨apart.1.symm, apart.2.symm⟩
  have once : (blocks.reverse.map Block.start).Nodup :=
    List.pairwise_map.mpr (markers.imp fun apart => apart.1)
  refine ⟨fun node inside binding opening => ?_, fun block member => ?_, markers, ?_, ?_⟩
  · obtain ⟨block, member, same, _⟩ := pairs.exists_block_of_opening inside opening
    have listed := List.mem_reverse.mpr member
    exact ⟨block, ⟨listed, same⟩, fun other ⟨found, again⟩ =>
      List.inj_on_of_nodup_map once found listed (again.trans same.symm)⟩
  · obtain ⟨level, here, stands⟩ := pairs.exists_stands (List.mem_reverse.mp member)
    exact ⟨level, here, stands.placed⟩
  · rw [unpaired_reverse]
  · rw [List.pairwise_reverse]
    exact (pairs.apart grown.distinct).imp Apart.symm

/-- In a markup with a block inside of a block's element, and an end marker too many. -/
theorem matchBlocks_sound_nested : ∃ fragment index,
    parse "<!-- hz if: a --><p><!-- ko with: b -->x<!-- /ko --></p><!-- /hz --><!-- /ko -->" =
        .ok fragment ∧
      (matchBlocks {} fragment.rootTrees).result = .ok index ∧ index.size = 2 ∧
      Sound {} fragment.rootTrees (matchBlocks {} fragment.rootTrees) index := by
  have succeeds : (match parse
      "<!-- hz if: a --><p><!-- ko with: b -->x<!-- /ko --></p><!-- /hz --><!-- /ko -->" with
      | .ok fragment =>
        match (matchBlocks {} fragment.rootTrees).result with
        | .ok index => index.size == 2
        | .error _ => false
      | .error _ => false) = true := by decide +kernel
  split at succeeds
  · rename_i fragment parsed
    split at succeeds
    · rename_i index matched
      exact ⟨fragment, index, parsed, matched, eq_of_beq succeeds,
        matchBlocks_sound {} fragment (grown_of_parse parsed) index matched⟩
    · cases succeeds
  · cases succeeds

end DataBind.Block
