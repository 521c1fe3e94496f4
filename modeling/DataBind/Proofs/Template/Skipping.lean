/-
**What compiling passes over.**

Behind the start marker of a block the walk passes over siblings until it meets the end marker of
the block. Where the markers of a forest can be matched, the end marker is among the siblings still
to be visited, so that every time of waiting ends at it, in every run of the compiler.

* `Part.cons_cases`: the siblings of a part, one by one or block by block;
* `Orderly`: the frames of a run, with the end marker that it waits for;
* `Orderly.answered`: every visit keeps a run orderly;
* `RunsOver`: what the compiler runs over: a forest, the body of a block or the children of a node;
* `Skips`: what a run passes over;
* `skips_of_run`: every run passes over the bodies of blocks with their end markers only.
-/

import DataBind.Proofs.Markup.Moments
import DataBind.Proofs.Template.Reach

namespace DataBind.Template

open Markup Markup.Tree Block Checked

variable {config : Config}

/-! ### Parts, sibling by sibling -/

/-- **The siblings of a part**: the first is no start marker, and the others are a part; or it is
one, and the others are the body and the end marker of its block, and a part. -/
theorem Part.cons_cases {blocks : List Block} {nodes rest : List Tree} {given : Block.Index}
    {node : Tree} (distinct : Distinct nodes)
    (part : Part config blocks nodes given (node :: rest)) :
    (∀ binding, directive? config node ≠ some (.opening binding)) ∧
        Part config blocks nodes given rest ∨
      ∃ binding body finish after, directive? config node = some (.opening binding) ∧
        rest = body ++ finish :: after ∧ directive? config finish = some .closing ∧
        (∀ tree ∈ body, tree.id ≠ finish.id) ∧
        ⟨binding, node.id, finish.id, body⟩ ∈ blocks ∧
        given.find? node.id = some ⟨binding, node.id, finish.id, body⟩ ∧
        Part config blocks nodes given after := by
  have own := part.distinct distinct
  obtain ⟨⟨loose, few, dangling, pairs, subset, found⟩, sublist⟩ := part
  have fewer : ∀ {later : List Tree}, later <:+ rest →
      (subtreesAll later).Sublist (subtreesAll nodes) := by
    rintro later ⟨front, rfl⟩
    refine List.Sublist.trans ?_ sublist
    rw [subtreesAll_cons, subtreesAll_append]
    exact List.Sublist.cons _ (List.sublist_append_of_sublist_right
      (List.sublist_append_right _ _))
  cases pairs with
  | @other _ _ _ below blocks _ dangling plain _ later =>
    refine Or.inl ⟨by simp [plain],
      ⟨⟨loose, blocks, dangling, later, ?_, ?_⟩, fewer List.suffix_rfl⟩⟩
    · exact fun _ member => subset (List.mem_append_right _ member)
    · exact fun block member => found block (List.mem_append_right _ member)
  | @dangling _ _ _ dangling closing _ later =>
    exact Or.inl ⟨by simp [closing],
      ⟨⟨true, few, dangling, later, subset, found⟩, fewer List.suffix_rfl⟩⟩
  | @block _ binding _ finish body after inner blocks _ opening leaf closing last _ later =>
    obtain ⟨_, _, _, ⟨_, alone⟩, _⟩ := distinct_block own leaf last
    have others : ∀ tree ∈ body, tree.id ≠ finish.id := fun tree member equal =>
      alone (equal ▸ id_mem_idsAll (mem_subtreesAll_of_mem member))
    have here : (⟨binding, node.id, finish.id, body⟩ : Block) ∈
        inner ++ ⟨binding, node.id, finish.id, body⟩ :: blocks :=
      List.mem_append_right _ List.mem_cons_self
    have behind : after <:+ body ++ finish :: after := ⟨body ++ [finish], by simp⟩
    refine Or.inr ⟨binding, body, finish, after, opening, rfl, closing, others, subset here,
      found _ here, ⟨⟨loose, blocks, dangling, later, ?_, ?_⟩, fewer behind⟩⟩
    · exact fun _ member => subset (List.mem_append_right _ (List.mem_cons_of_mem _ member))
    · exact fun block member =>
        found block (List.mem_append_right _ (List.mem_cons_of_mem _ member))

/-! ### The visits of a run -/

section Visits

variable {index : Block.Index} {inner : Block.Index → List Tree → Checked Plan}
  {state : Compiling} {visit : Visit}

/-- A step after which a walk stops has failed, or the walk would have stopped without it. -/
theorem Compiling.error_of_after {α : Type} {step : Checked α}
    {next : Compiling → α → Compiling × Action}
    (stops : (state.after step next).2 = .stop)
    (onward : ∀ state value, (next state value).2 ≠ .stop) :
    (state.after step next).1.error ≠ none := by
  obtain ⟨warnings, error | value⟩ := step
  · exact Option.some_ne_none error
  · exact absurd stops (onward _ value)

/-- **The compiler stops a walk for an error only.** -/
theorem error_of_stop (stops : (compileVisit config index inner state visit).2 = .stop) :
    (compileVisit config index inner state visit).1.error ≠ none := by
  obtain ⟨⟨id, content, children⟩, parent, isOpening⟩ := visit
  cases skipping : state.skipUntil with
  | some finish =>
    rw [compileVisit, skipping] at stops
    simp only at stops
    split at stops <;> cases stops
  | none =>
    cases isOpening with
    | false =>
      rw [compileVisit, skipping] at stops
      cases content <;> cases stops
    | true =>
      rw [compileVisit_opening skipping] at stops ⊢
      cases content with
      | text text => cases stops
      | raw tag attributes text => cases stops
      | declaration text => cases stops
      | comment text =>
        simp only [Tree.content, visitComment] at stops ⊢
        split at stops
        · cases stops
        · cases stops
        · split at stops
          · cases stops
          · refine Compiling.error_of_after stops fun _ _ same => ?_
            cases same
      | element tag attributes =>
        simp only [Tree.content, visitElement] at stops ⊢
        split at stops
        · split at stops <;> cases stops
        · refine Compiling.error_of_after stops fun _ element same => ?_
          cases whole : element.isComplete with
          | false =>
            rw [whole] at same
            cases same
          | true =>
            rw [whole] at same
            cases same

/-- A walk that waits for an end marker passes over every other node that opens. -/
theorem compileVisit_waiting {finish : NodeId} (skipping : state.skipUntil = some finish)
    (node : Tree) (parent : Option Tree) :
    compileVisit config index inner state ⟨node, parent, true⟩ =
      (if node.id = finish then { state with skipUntil := none } else state, .skip) := by
  rw [compileVisit, skipping]
  by_cases same : node.id = finish <;> simp [same]

/-- Closing a node is not the start of waiting. -/
theorem compileVisit_closes (active : state.skipUntil = none) (node : Tree)
    (parent : Option Tree) :
    ∃ closed, compileVisit config index inner state ⟨node, parent, false⟩ = (closed, .descend) ∧
      closed.skipUntil = none := by
  obtain ⟨id, content, children⟩ := node
  rw [compileVisit, active]
  cases content with
  | element tag attributes => exact ⟨_, rfl, active⟩
  | text _ => exact ⟨_, rfl, active⟩
  | raw _ _ _ => exact ⟨_, rfl, active⟩
  | comment _ => exact ⟨_, rfl, active⟩
  | declaration _ => exact ⟨_, rfl, active⟩

/-- **Behind a start marker the walk waits for the end marker of its block**, unless its step
fails. -/
theorem compileVisit_start_cases (active : state.skipUntil = none) {start : Tree}
    {binding : Binding} {block : Block}
    (opening : directive? config start = some (.opening binding))
    (here : index.find? start.id = some block) (parent : Option Tree) :
    ∃ next, next.skipUntil = some block.finish ∧
        compileVisit config index inner state ⟨start, parent, true⟩ = (next, .skip) ∨
      next.error ≠ none ∧
        compileVisit config index inner state ⟨start, parent, true⟩ = (next, .stop) := by
  rw [compileVisit_start active opening here]
  cases scopeStep (inner (index.erase start.id)) block.binding block.body with
  | mk warnings outcome =>
    cases outcome with
    | error error => exact ⟨_, Or.inr ⟨Option.some_ne_none error, rfl⟩⟩
    | ok step => exact ⟨_, Or.inl ⟨rfl, rfl⟩⟩

end Visits

/-! ### Orderly runs -/

/-- The frames of a run, with the end marker that it waits for: all siblings that the frames hold
are parts, but for those up to the end marker, which is in the innermost frame. -/
inductive Orderly (config : Config) (blocks : List Block) (nodes : List Tree)
    (given : Block.Index) : Option NodeId → List Frame → Prop
  | free {frames : List Frame} :
      (∀ frame ∈ frames, Part config blocks nodes given frame.siblings) →
      Orderly config blocks nodes given none frames
  | waiting {parent : Option Tree} {body after : List Tree} {finish : Tree} {outer : List Frame} :
      (∀ tree ∈ body, tree.id ≠ finish.id) → Part config blocks nodes given after →
      (∀ frame ∈ outer, Part config blocks nodes given frame.siblings) →
      Orderly config blocks nodes given (some finish.id)
        (⟨parent, body ++ finish :: after⟩ :: outer)

section Runs

variable {index given : Block.Index} {inner : Block.Index → List Tree → Checked Plan}
  {blocks : List Block} {nodes forest : List Tree} {state : Compiling} {frames : List Frame}
  {visit : Visit}

/-- **Every visit keeps a run orderly.** -/
theorem Orderly.answered {next : Compiling} {answer : Action} (distinct : Distinct nodes)
    (leafy : Leafy nodes) (orderly : Orderly config blocks nodes given state.skipUntil frames)
    (due : due? frames = some visit)
    (answered : compileVisit config given inner state visit = (next, answer))
    (goesOn : answer ≠ .stop) :
    Orderly config blocks nodes given next.skipUntil (framesAfter answer frames) := by
  generalize waits : state.skipUntil = wanted at orderly
  cases orderly with
  | @waiting parent body after finish outer others behind outside =>
    cases body with
    | nil =>
      -- the end marker itself
      cases due
      rw [compileVisit_waiting waits, if_pos rfl] at answered
      cases answered
      exact .free (List.forall_mem_cons.mpr ⟨behind, outside⟩)
    | cons node body =>
      obtain ⟨first, later⟩ := List.forall_mem_cons.mp others
      cases due
      rw [compileVisit_waiting waits, if_neg first] at answered
      cases answered
      rw [waits]
      exact .waiting later behind outside
  | free parts =>
    rcases due?_cases due with ⟨node, outer, rfl, rfl⟩ | ⟨parent, node, siblings, outer, rfl, rfl⟩
    · obtain ⟨closed, same, active⟩ :=
        @compileVisit_closes config given inner state waits node (outer.head?.bind Frame.parent)
      rw [same] at answered
      cases answered
      rw [active]
      exact .free (List.forall_mem_cons.mp parts).2
    · obtain ⟨here, outside⟩ := List.forall_mem_cons.mp parts
      have member : node ∈ subtreesAll (node :: siblings) :=
        mem_subtreesAll_of_mem List.mem_cons_self
      rcases here.cons_cases distinct with ⟨word, later⟩ |
        ⟨binding, body, finish, after, opening, rfl, _, others, _, found, later⟩
      · have leaf := fun plain => (here.leafy leafy) node member plain
        have passed : (compileVisit config given inner state ⟨node, parent, true⟩).2 ≠ .stop := by
          rw [answered]
          exact goesOn
        obtain ⟨opened, action, same, active, kept⟩ := kept_of_visit waits word leaf passed
        rw [same] at answered
        cases answered
        rw [active]
        refine .free ?_
        cases kept with
        | hidden => exact List.forall_mem_cons.mpr ⟨later, outside⟩
        | planned => exact List.forall_mem_cons.mpr ⟨later, outside⟩
        | leaf => exact List.forall_mem_cons.mpr ⟨later, outside⟩
        | entered =>
          exact List.forall_mem_cons.mpr ⟨here.children member,
            List.forall_mem_cons.mpr ⟨later, outside⟩⟩
      · obtain ⟨opened, ⟨waits, same⟩ | ⟨_, same⟩⟩ :=
          @compileVisit_start_cases config given inner state waits node _ _ opening found parent
        · rw [same] at answered
          cases answered
          rw [waits]
          exact .waiting others later outside
        · rw [same] at answered
          cases answered
          exact absurd rfl goesOn

/-- So a run of a part is orderly at all its moments. -/
theorem Comes.orderly (distinct : Distinct nodes) (leafy : Leafy nodes)
    (part : Part config blocks nodes given forest)
    (comes : Comes (compileVisit config given inner) .start forest state frames) :
    Orderly config blocks nodes given state.skipUntil frames := by
  induction comes with
  | start => exact .free (List.forall_mem_singleton.mpr part)
  | @past state _ _ orderly =>
    generalize state.skipUntil = wanted at orderly
    generalize shape : (⟨none, []⟩ :: _ : List Frame) = all at orderly
    cases orderly with
    | free parts =>
      cases shape
      exact .free (List.forall_mem_cons.mp parts).2
    | @waiting _ body _ _ _ _ _ _ => cases body <;> cases shape
  | answered _ due answered goesOn orderly =>
    exact orderly.answered distinct leafy due answered goesOn

end Runs

/-! ### What the runs pass over -/

/-- The runs of the compiler for a forest with its blocks: over the forest, over the body of a block
of a run, and over the children of a node of a run. The body of a block is compiled with or without
this block among those that are known. -/
inductive RunsOver (config : Config) (index : Block.Index) (nodes : List Tree) :
    Block.Index → List Tree → Prop
  | whole : RunsOver config index nodes index nodes
  | body {given deeper : Block.Index} {forest : List Tree} {start : Tree} {binding : Binding}
      {block : Block} :
      RunsOver config index nodes given forest → start ∈ subtreesAll forest →
      directive? config start = some (.opening binding) → given.find? start.id = some block →
      deeper = given.erase start.id ∨ deeper = given → RunsOver config index nodes deeper block.body
  | children {given : Block.Index} {forest : List Tree} {node : Tree} :
      RunsOver config index nodes given forest → node ∈ subtreesAll forest →
      RunsOver config index nodes given node.children

/-- What the run over a forest passes over, given some of the blocks of an index. -/
structure Skips (config : Config) (index given : Block.Index) (forest : List Tree) : Prop where
  /-- The run is the walk that compiles the forest. -/
  compiled : compile config given forest =
    (walk (passVisit config given forest) .start forest).1.finish
  /-- Its frames hold the later siblings in the lists that the walk is in. -/
  suffix : ∀ state frames, Comes (passVisit config given forest) .start forest state frames →
    ∀ frame ∈ frames, frame.siblings <:+ (frame.parent.map Tree.children).getD forest
  /-- A start marker that is met has its block in the index. The later siblings are the body of the
  block, its end marker and others, and unless the step of the block fails, the walk then waits for
  this end marker. -/
  block : ∀ state parent start siblings outer binding,
    Comes (passVisit config given forest) .start forest state
      (⟨parent, start :: siblings⟩ :: outer) →
    state.skipUntil = none → directive? config start = some (.opening binding) →
    ∃ block finish after, index.find? start.id = some block ∧ given.find? start.id = some block ∧
      block.binding = binding ∧ siblings = block.body ++ finish :: after ∧
      finish.id = block.finish ∧ directive? config finish = some .closing ∧
      let next := (passVisit config given forest state ⟨start, parent, true⟩).1
      next.error = none → next.skipUntil = some block.finish
  /-- The end marker that the walk waits for is a later sibling in the list that the walk is in. -/
  waiting : ∀ state frames id, Comes (passVisit config given forest) .start forest state frames →
    state.skipUntil = some id → ∃ parent before finish after outer,
      frames = ⟨parent, before ++ finish :: after⟩ :: outer ∧ finish.id = id
  /-- No node closes while the walk waits. -/
  opens : ∀ state frames visit, Comes (passVisit config given forest) .start forest state frames →
    state.skipUntil ≠ none → due? frames = some visit → visit.isOpening = true
  /-- A run that ends without an error does not wait any more. -/
  ended : let final := (walk (passVisit config given forest) .start forest).1
    final.error = none → final.skipUntil = none

/-- **A run over a part passes over whole blocks only.** -/
theorem Part.skips {index given : Block.Index} {blocks : List Block} {nodes forest : List Tree}
    (distinct : Distinct nodes) (leafy : Leafy nodes)
    (known : ∀ block ∈ blocks, index.find? block.start = some block)
    (part : Part config blocks nodes given forest) : Skips config index given forest := by
  have orderly : ∀ {state frames},
      Comes (passVisit config given forest) .start forest state frames →
      Orderly config blocks nodes given state.skipUntil frames :=
    Comes.orderly distinct leafy part
  have waiting : ∀ state frames id,
      Comes (passVisit config given forest) .start forest state frames →
      state.skipUntil = some id → ∃ parent before finish after outer,
        frames = ⟨parent, before ++ finish :: after⟩ :: outer ∧ finish.id = id := by
    intro state frames id comes waits
    have here := orderly comes
    rw [waits] at here
    cases here with
    | waiting => exact ⟨_, _, _, _, _, rfl, rfl⟩
  refine ⟨?_, fun state frames comes => comes.suffix, ?_, waiting, ?_, ?_⟩
  · rw [Template.compile_eq, walk_eq_traverseAll]
    rfl
  · intro state parent start siblings outer binding comes active opening
    have here := orderly comes
    rw [active] at here
    cases here with
    | free parts =>
      obtain ⟨first, _⟩ := List.forall_mem_cons.mp parts
      rcases first.cons_cases distinct with ⟨word, _⟩ |
        ⟨said, body, finish, after, same, rfl, closing, _, member, found, _⟩
      · exact absurd opening (word binding)
      · rw [opening] at same
        cases same
        refine ⟨_, finish, after, known _ member, found, rfl, rfl, rfl, closing, ?_⟩
        intro next clean
        obtain ⟨opened, ⟨waits, answer⟩ | ⟨failed, answer⟩⟩ :=
          @compileVisit_start_cases config given (compiledInside config given forest) state active
            start _ _ opening found parent
        · exact (congrArg (fun answer => answer.1.skipUntil) answer).trans waits
        · exact absurd ((congrArg (fun answer => answer.1.error) answer).symm.trans clean) failed
  · intro state frames visit comes waits due
    obtain ⟨id, wanted⟩ := Option.ne_none_iff_exists'.mp waits
    obtain ⟨parent, before, finish, after, outer, rfl, _⟩ := waiting state frames id comes wanted
    cases before <;> cases due <;> rfl
  · intro final clean
    obtain ⟨state, frames, comes, ⟨rfl, ends⟩ | ⟨visit, stopped, _, answered, ends⟩⟩ :=
      exists_end (passVisit config given forest) .start forest
    · have here := orderly comes
      have same : final = state := congrArg Prod.fst ends
      rw [same]
      generalize state.skipUntil = wanted at here
      cases here with
      | free => rfl
    · have same : final = stopped := congrArg Prod.fst ends
      have failed : stopped.error ≠ none := by
        have raised := @error_of_stop config given (compiledInside config given forest) state visit
          (congrArg Prod.snd answered)
        exact fun none => raised ((congrArg (fun answer => answer.1.error) answered).trans none)
      exact absurd (same ▸ clean) failed

section Matched

variable {index given : Block.Index} {blocks : List Block} {nodes forest : List Tree}

/-- The body of a block of a part is a part, with this block among those known too. -/
theorem Part.body_of_found (part : Part config blocks nodes given forest)
    (whole : Distinct nodes) {start : Tree} (member : start ∈ subtreesAll forest)
    {binding : Binding} (opening : directive? config start = some (.opening binding))
    {block : Block} (found : given.find? start.id = some block) {deeper : Block.Index}
    (fewer : deeper = given.erase start.id ∨ deeper = given) :
    Part config blocks nodes deeper block.body := by
  rcases fewer with rfl | rfl
  · obtain ⟨other, _, same, _, _, body⟩ := part.body whole member opening
    rw [found] at same
    cases same
    exact body
  · obtain ⟨⟨_, few, _, pairs, subset, known⟩, sublist⟩ := part
    obtain ⟨own, here, same, _⟩ := pairs.exists_block_of_opening member opening
    rw [← same, known own here] at found
    cases found
    obtain ⟨inner, paired, fewer, within⟩ := pairs.exists_pairs_body here
    exact ⟨⟨false, inner, [], paired, fun _ deep => subset (fewer deep),
      fun other deep => known other (fewer deep)⟩, within.trans sublist⟩

/-- Every run is over a part of the forest. -/
theorem RunsOver.part (distinct : Distinct nodes) (whole : Part config blocks nodes index nodes)
    (run : RunsOver config index nodes given forest) : Part config blocks nodes given forest := by
  induction run with
  | whole => exact whole
  | body _ member opening found fewer part =>
    exact part.body_of_found distinct member opening found fewer
  | children _ member part => exact part.children member

/-- What is compiled in compiling a forest is compiled in one of its runs. -/
theorem Pass.run (pass : Pass config index nodes given forest) :
    RunsOver config index nodes given forest := by
  induction pass with
  | whole => exact .whole
  | inner _ met inner run =>
    have member := node_mem_of_asked met.visited
    cases inner with
    | body opening _ found => exact .body run member opening found (Or.inl rfl)
    | children _ => exact .children run member

end Matched

/-- **Skipping never loses output.** In every run of the compiler for a fragment whose markers can be
matched, over its roots, over the body of a block or over the children of a node, every start marker
that is met has its block, whose end marker is a later sibling; no node closes while the walk waits
for it; and a run that ends without an error does not wait any more. All forests that are compiled in
compiling the fragment are those of such runs. -/
theorem skips_of_run {fragment : Fragment} (grown : fragment.Grown) {index : Block.Index}
    (matched : (matchBlocks config fragment.rootTrees).result = .ok index) :
    (∀ given forest, RunsOver config index fragment.rootTrees given forest →
        Skips config index given forest) ∧
      ∀ given forest, Pass config index fragment.rootTrees given forest →
        RunsOver config index fragment.rootTrees given forest := by
  have distinct := grown.distinct
  obtain ⟨blocks, dangling, pairs, _⟩ := exists_pairs_of_nested grown.leafy
    (nested_of_matchBlocks distinct grown.leafy matched)
  rw [matchBlocks_of_pairs distinct pairs] at matched
  cases matched
  have known : ∀ block ∈ blocks, (⟨blocks.reverse⟩ : Block.Index).find? block.start = some block :=
    fun block member => find?_of_pairs pairs distinct member
  have whole : Part config blocks fragment.rootTrees ⟨blocks.reverse⟩ fragment.rootTrees :=
    Part.whole pairs known
  exact ⟨fun given forest run => (run.part distinct whole).skips distinct grown.leafy known,
    fun given forest pass => pass.run⟩

/-- A block inside of a paragraph inside of a block: the run over the children of the paragraph. -/
theorem skips_of_run_nested : ∃ fragment index,
    parse "<!-- ko if: a --><p><!-- hz with: b -->x<!-- /hz -->y</p><!-- /ko -->z" =
        .ok fragment ∧
      (matchBlocks {} fragment.rootTrees).result = .ok index ∧
      Skips {} index (index.erase 0) [.node 2 (.comment " hz with: b ") [], .node 3 (.text "x") [],
        .node 4 (.comment " /hz ") [], .node 5 (.text "y") []] := by
  let content := [Markup.Tree.node 2 (.comment " hz with: b ") [], .node 3 (.text "x") [],
    .node 4 (.comment " /hz ") [], .node 5 (.text "y") []]
  let start := Markup.Tree.node 0 (.comment " ko if: a ") []
  let paragraph := Markup.Tree.node 1 (.element "p" []) content
  have read : (parse "<!-- ko if: a --><p><!-- hz with: b -->x<!-- /hz -->y</p><!-- /ko -->z"
      ).toOption.any (fun fragment => decide (start ∈ subtreesAll fragment.rootTrees) &&
        match (matchBlocks {} fragment.rootTrees).result with
        | .ok index => (index.find? 0).any fun block => decide (paragraph ∈ block.body)
        | .error _ => false) = true := by
    decide +kernel
  obtain ⟨fragment, parsed, read⟩ := exists_of_parse_any read
  rw [Bool.and_eq_true, decide_eq_true_eq] at read
  obtain ⟨member, read⟩ := read
  split at read
  · rename_i index matched
    obtain ⟨block, found, inside⟩ := (Option.any_eq_true _ _).mp read
    have opening : directive? {} start = some (.opening ⟨.showIf, "a"⟩) := by decide
    have body : RunsOver {} index fragment.rootTrees (index.erase 0) block.body :=
      .body .whole member opening found (Or.inl rfl)
    have run : RunsOver {} index fragment.rootTrees (index.erase 0) content :=
      .children body (mem_subtreesAll_of_mem (of_decide_eq_true inside))
    exact ⟨fragment, index, parsed, matched,
      (skips_of_run (grown_of_parse parsed) matched).1 _ _ run⟩
  · cases read

end DataBind.Template
