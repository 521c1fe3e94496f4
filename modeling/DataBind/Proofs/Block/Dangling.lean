/-
**End markers that nothing opens.**

An end marker that is met while no block is open is warned about, and matching goes on as if it were
not there.

* `unopened`: the end markers that are met with no block open, in the order met;
* `warnings_matchBlocks`: matching warns about each of them once, and about nothing else;
* `unopened_of_pairs`: in a forest whose markers can be matched they are those that end no block;
* `without`: a forest without some of its nodes, by recursion over its blocks;
* `Pairs.without_dangling`: without them every sibling list is nested, with the same blocks.
-/

import DataBind.Proofs.Block.Blame
import DataBind.Proofs.Markup.Asking

namespace DataBind.Block

open Markup Markup.Tree

variable {config : Config}

/-! ### What matching warns about -/

/-- The end markers that are met with no block open, according to a log of matching. -/
def lonely (config : Config) (log : List (Matching × Visit)) : List Tree :=
  log.filterMap fun (state, visit) =>
    if visit.isOpening && isClosing config visit.node && state.unclosed.isEmpty then
      some visit.node
    else none

/-- The end markers of a forest that matching meets with no block open, in the order met. -/
def unopened (config : Config) (nodes : List Tree) : List Tree :=
  lonely config (asked (matchVisit config nodes) .start nodes)

theorem lonely_append (first second : List (Matching × Visit)) :
    lonely config (first ++ second) = lonely config first ++ lonely config second :=
  List.filterMap_append

/-- A visit that matching does not warn about. -/
theorem lonely_cons_of_quiet {state : Matching} {visit : Visit}
    (quiet : visit.isOpening = true → isClosing config visit.node = true → state.unclosed ≠ [])
    (log : List (Matching × Visit)) :
    lonely config ((state, visit) :: log) = lonely config log := by
  refine List.filterMap_cons_none (if_neg fun met => ?_)
  simp only [Bool.and_eq_true, List.isEmpty_iff] at met
  exact quiet met.1.1 met.1.2 met.2

/-- **One visit warns** about an end marker that is met with no block open, and only about this. -/
theorem warnings_matchVisit (forest : List Tree) (state : Matching) (visit : Visit) :
    (matchVisit config forest state visit).1.warnings = state.warnings ++
      (lonely config [(state, visit)]).map fun marker => .danglingEnd (markerText marker) := by
  obtain ⟨node, parent, isOpening⟩ := visit
  cases isOpening with
  | false => simp [matchVisit_closing, lonely]
  | true =>
    rw [matchVisit_opening]
    cases said : directive? config node with
    | none => simp [lonely, isClosing, said]
    | some word =>
      cases word with
      | opening binding => simp [lonely, isClosing, said]
      | closing =>
        simp only [close]
        cases pending : state.unclosed with
        | nil => simp [lonely, isClosing, said, pending]
        | cons innermost outer =>
          simp only
          split <;> simp [lonely, isClosing, said, pending]

/-- **Matching warns about the end markers that it meets with no block open**, once about each and
in the order met, whether or not the markers can be matched. -/
theorem warnings_matchBlocks (config : Config) (nodes : List Tree) :
    (matchBlocks config nodes).warnings =
      (unopened config nodes).map fun marker => .danglingEnd (markerText marker) := by
  have noted : (walk (matchVisit config nodes) .start nodes).1.warnings =
      (unopened config nodes).map fun marker => .danglingEnd (markerText marker) := by
    refine @logged_induction Matching (matchVisit config nodes) .start nodes
      (fun state log => state.warnings = (lonely config log).map fun marker =>
        .danglingEnd (markerText marker)) rfl ?_
    intro state log visit _ held
    rw [warnings_matchVisit, held, lonely_append, List.map_append]
  rw [← noted, matchBlocks]
  split <;> rfl

/-! ### The markers in a forest whose blocks are known -/

section Matched

variable {forest : List Tree} {parent : Option Tree} {state : Matching} {node : Tree}

/-- A node that matching goes on from is visited before and after what is below it; only the first
visit can warn. -/
theorem lonely_askedAll_cons {opened middle : Matching}
    (entered : matchVisit config forest state ⟨node, parent, true⟩ = (opened, .descend))
    (below : matchSiblings config forest (some node) opened node.children = (middle, none))
    (rest : List Tree) :
    lonely config (askedAll (matchVisit config forest) parent state (node :: rest)) =
      lonely config [(state, ⟨node, parent, true⟩)] ++
        (lonely config (askedAll (matchVisit config forest) (some node) opened node.children) ++
          lonely config (askedAll (matchVisit config forest) parent middle rest)) := by
  have left : lonely config ((middle, ⟨node, parent, false⟩) ::
      askedAll (matchVisit config forest) parent middle rest) = _ :=
    lonely_cons_of_quiet (fun impossible => by cases impossible) _
  rw [askedAll_of_descend entered below (matchVisit_closing middle node parent),
    ← List.singleton_append, lonely_append, lonely_append, left]

/-- A marker has no children to be asked about. -/
theorem lonely_askedAll_leaf {opened : Matching}
    (entered : matchVisit config forest state ⟨node, parent, true⟩ = (opened, .descend))
    (leaf : node.children = []) (rest : List Tree) :
    lonely config (askedAll (matchVisit config forest) parent state (node :: rest)) =
      lonely config [(state, ⟨node, parent, true⟩)] ++
        lonely config (askedAll (matchVisit config forest) parent opened rest) := by
  have below : matchSiblings config forest (some node) opened node.children = (opened, none) := by
    rw [leaf, matchSiblings_nil]
  rw [lonely_askedAll_cons entered below, leaf, askedAll_nil]
  rfl

/-- **In a forest whose blocks are known** the dangling end markers are met with no block open, and
no others are. -/
theorem lonely_of_pairs {loose : Bool} {nodes dangling : List Tree} {blocks : List Block}
    (pairs : Pairs config loose nodes blocks dangling) (parent : Option Tree) (state : Matching)
    (before after : List Tree) (here : siblingsOf forest parent = before ++ (nodes ++ after))
    (distinct : Distinct (siblingsOf forest parent))
    (outside : loose = true → state.unclosed = []) :
    lonely config (askedAll (matchVisit config forest) parent state nodes) = dangling := by
  induction pairs generalizing parent state before after with
  | nil => rw [askedAll_nil]; rfl
  | @other _ node rest below blocks deeper dangling plain children _ under later =>
    have inside : node ∈ subtreesAll (siblingsOf forest parent) :=
      mem_subtreesAll_of_mem (by rw [here]; simp)
    have own : siblingsOf forest (some node) = [] ++ (node.children ++ []) := by simp [siblingsOf]
    have entered : matchVisit config forest state ⟨node, parent, true⟩ = (state, .descend) := by
      rw [matchVisit_opening, plain]
    have run := matchSiblings_of_pairs children (some node) state [] [] own
      (distinct.children inside) outside
    rw [lonely_askedAll_cons entered run,
      under (some node) state [] [] own (distinct.children inside) outside,
      later parent (state.found below deeper) (before ++ [node]) after (by rw [here]; simp)
        distinct outside]
    simp [lonely, isClosing, plain]
  | @dangling node rest blocks dangling closing leaf _ later =>
    let warned : Matching :=
      { state with warnings := state.warnings ++ [.danglingEnd (markerText node)] }
    have entered : matchVisit config forest state ⟨node, parent, true⟩ = (warned, .descend) := by
      rw [matchVisit_opening, closing]
      simp only [close, outside rfl, warned]
    rw [lonely_askedAll_leaf entered leaf,
      later parent warned (before ++ [node]) after (by rw [here]; simp) distinct outside]
    simp [lonely, isClosing, closing, outside rfl]
  | @block _ binding start finish body rest inner blocks dangling opening leaf closing last within _
      inside later =>
    have opened : siblingsOf forest parent =
        (before ++ [start]) ++ (body ++ finish :: (rest ++ after)) := by
      rw [here]
      simp
    let pending : Matching :=
      { state with unclosed := ⟨binding, start, parent.map Tree.id⟩ :: state.unclosed }
    have entered : matchVisit config forest state ⟨start, parent, true⟩ = (pending, .descend) := by
      rw [matchVisit_opening, opening]
    have run : traverseAll (matchVisit config forest) parent pending body = _ :=
      matchSiblings_of_pairs within parent pending _ _ opened distinct (by simp)
    let ended : Matching := { (state.found inner []) with
      index := (state.found inner []).index.insert
        (closed forest parent ⟨binding, start, parent.map Tree.id⟩ finish) }
    have left : matchVisit config forest (pending.found inner []) ⟨finish, parent, true⟩ =
        (ended, .descend) := by
      rw [matchVisit_opening, closing]
      simp only [close, Matching.found, pending, if_true]
      rfl
    rw [lonely_askedAll_leaf entered leaf, askedAll_append matchVisit_ne_leave run, lonely_append,
      inside parent pending _ _ opened distinct (by simp), lonely_askedAll_leaf left last,
      later parent ended (before ++ start :: (body ++ [finish])) after (by rw [here]; simp) distinct
        outside]
    simp [lonely, isClosing, opening, Matching.found, pending]

end Matched

/-- **The end markers that are met with no block open are those that end no block.** -/
theorem unopened_of_pairs {nodes dangling : List Tree} {blocks : List Block}
    (distinct : Distinct nodes) (pairs : Pairs config true nodes blocks dangling) :
    unopened config nodes = dangling := by
  rw [unopened, asked_eq_askedAll]
  exact lonely_of_pairs pairs none .start [] [] (by simp [siblingsOf]) distinct fun _ => rfl

/-! ### Forests without these markers -/

/-- A forest without some of its nodes. -/
def without (gone nodes : List Tree) : List Tree :=
  removeEach (gone.map Tree.id) nodes

/-- Of the nodes that are taken out, only those in the forest matter. -/
theorem without_congr {gone others nodes : List Tree}
    (same : ∀ id ∈ idsAll nodes, id ∈ gone.map Tree.id ↔ id ∈ others.map Tree.id) :
    without gone nodes = without others nodes :=
  removeEach_congr same

/-- Dangling end markers are nodes of the forest. -/
theorem Pairs.dangling_subset {loose : Bool} {nodes dangling : List Tree} {blocks : List Block}
    (pairs : Pairs config loose nodes blocks dangling) (distinct : Distinct nodes) :
    dangling.map Tree.id ⊆ idsAll nodes := by
  rw [pairs.dangling_eq distinct]
  exact (List.filter_sublist.map Tree.id).subset

section Removal

variable {loose tight : Bool} {nodes rest dangling deeper : List Tree} {blocks below : List Block}
  {node : Tree}

/-- A node that is no marker stays, without the markers that dangle below it. -/
theorem without_other (children : Pairs config tight node.children below deeper)
    (later : Pairs config loose rest blocks dangling) (distinct : Distinct (node :: rest)) :
    without (deeper ++ dangling) (node :: rest) =
      .node node.id node.content (without deeper node.children) :: without dangling rest := by
  obtain ⟨notBelow, notLater, distinctBelow, distinctLater, apart⟩ := distinct.cons
  have early := children.dangling_subset distinctBelow
  have late := later.dangling_subset distinctLater
  have stays : node.id ∉ (deeper ++ dangling).map Tree.id := by
    rw [List.map_append, List.mem_append, not_or]
    exact ⟨fun inside => notBelow (early inside), fun inside => notLater (late inside)⟩
  have here : without (deeper ++ dangling) node.children = without deeper node.children := by
    refine without_congr fun id inside => ?_
    rw [List.map_append, List.mem_append]
    exact or_iff_left fun found => apart inside (late found)
  have after : without (deeper ++ dangling) rest = without dangling rest := by
    refine without_congr fun id inside => ?_
    rw [List.map_append, List.mem_append]
    exact or_iff_right fun found => apart (early found) inside
  rw [← here, ← after]
  exact removeEach_cons_of_not_mem stays rest

/-- A dangling end marker is taken out. -/
theorem without_dangling (distinct : Distinct (node :: rest)) :
    without (node :: dangling) (node :: rest) = without dangling rest := by
  have same : without (node :: dangling) rest = without dangling rest := by
    refine without_congr fun id inside => ?_
    rw [List.map_cons, List.mem_cons]
    exact or_iff_right fun equal => distinct.cons.2.1 (equal ▸ inside)
  rw [← same]
  exact removeEach_cons_of_mem List.mem_cons_self rest

/-- A block stays as it is. -/
theorem without_block {start finish : Tree} {body : List Tree} (leaf : start.children = [])
    (last : finish.children = []) (later : Pairs config loose rest blocks dangling)
    (distinct : Distinct (start :: (body ++ finish :: rest))) :
    without dangling (start :: (body ++ finish :: rest)) =
      start :: (body ++ finish :: without dangling rest) := by
  obtain ⟨_, _, distinctRest, _, apart⟩ := distinct_block distinct leaf last
  have late := later.dangling_subset distinctRest
  have split : start :: (body ++ finish :: rest) = (start :: (body ++ [finish])) ++ rest := by simp
  have kept : without dangling (start :: (body ++ [finish])) = start :: (body ++ [finish]) := by
    refine removeEach_of_not_mem fun id found inside => apart ?_ (late found)
    rw [idsAll_cons, leaf, idsAll_nil, List.nil_append, idsAll_append, idsAll_cons, last] at inside
    simpa using inside
  rw [split, without, removeEach_append]
  show without dangling (start :: (body ++ [finish])) ++ without dangling rest = _
  rw [kept]
  simp

end Removal

/-- **Without its dangling end markers a forest has the same blocks**, and none dangles. -/
theorem Pairs.without_dangling {loose : Bool} {nodes dangling : List Tree} {blocks : List Block}
    (pairs : Pairs config loose nodes blocks dangling) (distinct : Distinct nodes) :
    Pairs config false (without dangling nodes) blocks [] := by
  induction pairs with
  | nil => exact .nil false
  | @other _ node _ _ _ deeper _ plain children later under after =>
    obtain ⟨_, _, distinctBelow, distinctLater, _⟩ := distinct.cons
    let lean := Markup.Tree.node node.id node.content (without deeper node.children)
    have said : directive? config lean = none := (directive?_of_content rfl).trans plain
    have below : Pairs config false lean.children _ [] := under distinctBelow
    rw [without_other children later distinct]
    exact .other said below (after distinctLater)
  | dangling closing leaf later after =>
    rw [Block.without_dangling distinct]
    exact after distinct.cons.2.2.2.1
  | block opening leaf closing last within later _ after =>
    rw [without_block leaf last later distinct]
    exact .block opening leaf closing last within (after (distinct_block distinct leaf last).2.2.1)

end DataBind.Block
