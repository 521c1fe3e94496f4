/-
**Which nodes compiling reaches.**

Compiling a forest passes over the children of elements that cannot have any or that show a value,
and over the bodies of blocks that show a value. All other elements and start markers are met in
some pass.

* `isHidden`, `visible`: what is passed over, and what is left, in document order;
* `visible_other`, `visible_block`: what is visible, by recursion over the forest;
* `mem_visible_iff`: what one pass meets, and what is visible inside of it, is what is visible;
* `met_iff_visible`: the elements and start markers met in some pass are the visible ones.
-/

import DataBind.Proofs.Binding.Container
import DataBind.Proofs.Template.Passes

namespace DataBind.Template

open Markup Markup.Tree Block Checked

variable {config : Config}

/-! ### Visible nodes -/

/-- Whether an element cannot have children, or shows a value in their place. -/
def hidesChildren (config : Config) (node : Tree) : Bool :=
  match node.content with
  | .element tag attributes =>
    isVoid tag || (attributes.lookup config.bindingAttribute).any fun source =>
      match Binding.entriesOf source with
      | .ok entries =>
        (Binding.valueOf? .text entries).isSome || (Binding.valueOf? .html entries).isSome
      | .error _ => false
  | _ => false

/-- Whether a node stands below an element that hides its children, or in the body of a block that
shows a value. -/
def isHidden (config : Config) (blocks : List Block) (nodes : List Tree) (id : NodeId) : Bool :=
  ((subtreesAll nodes).any fun node => hidesChildren config node && id ∈ idsAll node.children) ||
    blocks.any fun block => block.binding.kind.isValue && id ∈ idsAll block.body

/-- The nodes of a forest that are not hidden, in document order. -/
def visible (config : Config) (blocks : List Block) (nodes : List Tree) : List Tree :=
  (subtreesAll nodes).filter fun node => !isHidden config blocks nodes node.id

@[simp] theorem visible_nil (blocks : List Block) : visible config blocks [] = [] := by
  rw [visible, subtreesAll_nil, List.filter_nil]

/-- What is visible depends on which blocks there are only. -/
theorem visible_congr {blocks others : List Block} (same : ∀ block, block ∈ blocks ↔ block ∈ others)
    (nodes : List Tree) : visible config blocks nodes = visible config others nodes := by
  refine List.filter_congr fun node _ => congrArg (!·) ?_
  unfold isHidden
  congr 1
  rw [Bool.eq_iff_iff, List.any_eq_true, List.any_eq_true]
  simp only [same]

section Recursion

variable {loose : Bool} {nodes dangling : List Tree} {blocks : List Block}

/-- A marker has no children to hide. -/
theorem hidesChildren_of_directive {node : Tree} {word : Binding.Directive}
    (said : directive? config node = some word) : hidesChildren config node = false := by
  obtain ⟨id, content, children⟩ := node
  cases content with
  | element _ _ => cases said
  | _ => rfl

/-- What hides a node of another forest is not in this one. -/
theorem isHidden_of_not_mem (pairs : Pairs config loose nodes blocks dangling) {id : NodeId}
    (absent : id ∉ idsAll nodes) : isHidden config blocks nodes id = false := by
  rw [isHidden, Bool.or_eq_false_iff, List.any_eq_false, List.any_eq_false]
  refine ⟨fun node inside => ?_, fun block member => ?_⟩
  · have elsewhere : id ∉ idsAll node.children := fun below =>
      absent (((subtreesAll_children_sublist inside).map Tree.id).subset below)
    simp [elsewhere]
  · have elsewhere : id ∉ idsAll block.body := fun within =>
      absent (pairs.body_subset member within)
    simp [elsewhere]

/-- **A node that is no marker** is visible, with what is visible below it unless it is hidden, and
what is visible after it. -/
theorem visible_other {node : Tree} {rest deeper : List Tree} {below : List Block} {tight : Bool}
    (children : Pairs config tight node.children below deeper)
    (later : Pairs config loose rest blocks dangling) (distinct : Distinct (node :: rest)) :
    visible config (below ++ blocks) (node :: rest) =
      node :: ((if hidesChildren config node then [] else visible config below node.children) ++
        visible config blocks rest) := by
  obtain ⟨notBelow, notLater, _, _, apart⟩ := distinct.cons
  have split : ∀ id, isHidden config (below ++ blocks) (node :: rest) id =
      (hidesChildren config node && decide (id ∈ idsAll node.children) ||
        isHidden config below node.children id || isHidden config blocks rest id) := by
    intro id
    unfold isHidden
    rw [subtreesAll_cons, List.any_cons, List.any_append, List.any_append]
    ac_rfl
  have here : isHidden config (below ++ blocks) (node :: rest) node.id = false := by
    rw [split, isHidden_of_not_mem children notBelow, isHidden_of_not_mem later notLater]
    simp [notBelow]
  unfold visible
  rw [subtreesAll_cons, List.filter_cons, here, List.filter_append]
  simp only [Bool.not_false, if_true]
  congr 2
  · cases hides : hidesChildren config node with
    | true =>
      rw [if_pos rfl, List.filter_eq_nil_iff]
      intro inner inside
      rw [split, hides]
      simp [id_mem_idsAll inside]
    | false =>
      rw [if_neg (by decide)]
      refine List.filter_congr fun inner inside => ?_
      rw [split, hides, isHidden_of_not_mem later (apart (id_mem_idsAll inside))]
      simp
  · refine List.filter_congr fun inner inside => ?_
    have absent : inner.id ∉ idsAll node.children := fun found => apart found (id_mem_idsAll inside)
    rw [split, isHidden_of_not_mem children absent]
    simp [absent]

/-- A dangling end marker is visible, with what is visible after it. -/
theorem visible_dangling {node : Tree} {rest : List Tree}
    (closing : directive? config node = some .closing) (leaf : node.children = [])
    (later : Pairs config loose rest blocks dangling) (distinct : Distinct (node :: rest)) :
    visible config blocks (node :: rest) = node :: visible config blocks rest := by
  have none : Pairs config true node.children [] [] := Pairs.of_leaf leaf
  have same := visible_other none later distinct
  rwa [hidesChildren_of_directive closing, if_neg (by decide), leaf, visible_nil] at same

/-- **A block** is visible by its markers, with what is visible in its body unless it shows a value,
and what is visible after it. -/
theorem visible_block {binding : Binding} {start finish : Tree} {body rest : List Tree}
    {inner : List Block} (opening : directive? config start = some (.opening binding))
    (leaf : start.children = []) (closing : directive? config finish = some .closing)
    (last : finish.children = []) (within : Pairs config false body inner [])
    (later : Pairs config loose rest blocks dangling)
    (distinct : Distinct (start :: (body ++ finish :: rest))) :
    visible config (inner ++ ⟨binding, start.id, finish.id, body⟩ :: blocks)
        (start :: (body ++ finish :: rest)) =
      start :: ((if binding.kind.isValue then [] else visible config inner body) ++
        finish :: visible config blocks rest) := by
  obtain ⟨_, _, _, ⟨startOut, finishOut⟩, apart⟩ := distinct_block distinct leaf last
  have split : ∀ id,
      isHidden config (inner ++ ⟨binding, start.id, finish.id, body⟩ :: blocks)
        (start :: (body ++ finish :: rest)) id =
      (binding.kind.isValue && decide (id ∈ idsAll body) || isHidden config inner body id ||
        isHidden config blocks rest id) := by
    intro id
    unfold isHidden
    rw [subtreesAll_cons, leaf, subtreesAll_nil, List.nil_append, subtreesAll_append,
      subtreesAll_cons, last, subtreesAll_nil, List.nil_append, List.any_cons, List.any_append,
      List.any_cons, List.any_append, List.any_cons, hidesChildren_of_directive opening,
      hidesChildren_of_directive closing, Bool.false_and, Bool.false_or, Bool.false_and,
      Bool.false_or]
    ac_rfl
  have startLate : start.id ∉ idsAll rest := apart List.mem_cons_self
  have finishLate : finish.id ∉ idsAll rest := apart (by simp)
  have bodyLate : ∀ id ∈ idsAll body, id ∉ idsAll rest := fun id inside =>
    apart (List.mem_cons_of_mem _ (List.mem_append_left _ inside))
  have startShown : isHidden config (inner ++ ⟨binding, start.id, finish.id, body⟩ :: blocks)
      (start :: (body ++ finish :: rest)) start.id = false := by
    rw [split, isHidden_of_not_mem within startOut, isHidden_of_not_mem later startLate]
    simp [startOut]
  have finishShown : isHidden config (inner ++ ⟨binding, start.id, finish.id, body⟩ :: blocks)
      (start :: (body ++ finish :: rest)) finish.id = false := by
    rw [split, isHidden_of_not_mem within finishOut, isHidden_of_not_mem later finishLate]
    simp [finishOut]
  unfold visible
  rw [subtreesAll_cons, leaf, subtreesAll_nil, List.nil_append, subtreesAll_append,
    subtreesAll_cons, last, subtreesAll_nil, List.nil_append, List.filter_cons, startShown,
    List.filter_append, List.filter_cons, finishShown]
  simp only [Bool.not_false, if_true]
  congr 2
  · cases value : binding.kind.isValue with
    | true =>
      rw [if_pos rfl, List.filter_eq_nil_iff]
      intro node inside
      rw [split, value]
      simp [id_mem_idsAll inside]
    | false =>
      rw [if_neg (by decide)]
      refine List.filter_congr fun node inside => ?_
      rw [split, value, isHidden_of_not_mem later (bodyLate _ (id_mem_idsAll inside))]
      simp
  · congr 1
    refine List.filter_congr fun node inside => ?_
    have absent : node.id ∉ idsAll body := fun found =>
      bodyLate _ found (id_mem_idsAll inside)
    rw [split, isHidden_of_not_mem within absent]
    simp [absent]

end Recursion

/-! ### The nodes that one pass meets -/

/-- The nodes that are met according to a log, in order: their openings, outside of blocks that are
passed over. -/
def openings (log : List (Compiling × Visit)) : List Tree :=
  log.filterMap fun (state, visit) =>
    if visit.isOpening && state.skipUntil.isNone then some visit.node else none

/-- A node that is visible in what is compiled inside of a node that is met. -/
def Within (config : Config) (index : Block.Index) (met node : Tree) : Prop :=
  ∃ deeper content, Inner config index met deeper content ∧
    ∃ (loose : Bool) (few : List Block) (lost : List Tree),
      Pairs config loose content few lost ∧ node ∈ visible config few content

/-- Elements and start markers: the nodes that compiling checks. -/
def IsSite (config : Config) (node : Tree) : Prop :=
  node.content.isElement = true ∨ ∃ binding, directive? config node = some (.opening binding)

/-- Of one forest the visible nodes are the same for all ways to find its blocks. -/
theorem visible_unique {loose tight : Bool} {nodes dangling lost : List Tree}
    {blocks few : List Block} (pairs : Pairs config loose nodes blocks dangling)
    (others : Pairs config tight nodes few lost) :
    visible config blocks nodes = visible config few nodes :=
  visible_congr (fun _ => pairs.mem_iff.trans others.mem_iff.symm) nodes

/-- Whether an element hides its children, by its bindings. -/
theorem hidesChildren_eq {node : Tree} {tag source : String} {attributes : List Attribute}
    {bindings : List Binding} (content : node.content = .element tag attributes)
    (bound : attributes.lookup config.bindingAttribute = some source)
    (parsed : (Binding.parseContainer source tag).result = .ok bindings) :
    hidesChildren config node =
      (isVoid tag || bindings.any fun binding => binding.kind.isValue) := by
  obtain ⟨entries, read, rfl, _⟩ := Binding.exists_of_parseContainer parsed
  unfold hidesChildren
  simp only [content, bound, Option.any_some, read]
  congr 1
  rw [Bool.eq_iff_iff, Bool.or_eq_true, List.any_eq_true]
  constructor
  · rintro (named | named)
    · obtain ⟨value, found⟩ := Option.isSome_iff_exists.mp named
      exact ⟨⟨.text, value⟩, Binding.mem_bindingsOf.mpr found, rfl⟩
    · obtain ⟨value, found⟩ := Option.isSome_iff_exists.mp named
      exact ⟨⟨.html, value⟩, Binding.mem_bindingsOf.mpr found, rfl⟩
  · rintro ⟨⟨kind, value⟩, member, shows⟩
    have named := Option.isSome_of_mem (Binding.mem_bindingsOf.mp member)
    cases kind with
    | text => exact Or.inl named
    | html => exact Or.inr named
    | _ => cases shows

/-- What is compiled inside of a node that is no start marker: the children of an element whose
bindings are known. -/
theorem Inner.scoping {index deeper : Block.Index} {node : Tree} {forest : List Tree}
    (inner : Inner config index node deeper forest)
    (word : ∀ binding, directive? config node ≠ some (.opening binding)) :
    deeper = index ∧ forest = node.children ∧
      ∃ tag bindings, Scoping config node tag bindings := by
  cases inner with
  | body opening _ _ => exact absurd opening (word _)
  | children scoping => exact ⟨rfl, rfl, _, _, scoping⟩

/-- What a pass does with a node that is no start marker: it passes over children that are hidden,
that have a plan of their own or that there are none of, or it goes on to them. -/
inductive Kept (config : Config) (index : Block.Index) (node : Tree) : Action → Prop
  | hidden : hidesChildren config node = true →
      (∀ deeper forest, ¬ Inner config index node deeper forest) → Kept config index node .skip
  | planned {tag : String} {bindings : List Binding} : hidesChildren config node = false →
      Scoping config node tag bindings → Kept config index node .skip
  | leaf : node.children = [] → (∀ deeper forest, ¬ Inner config index node deeper forest) →
      Kept config index node .skip
  | entered {tag : String} {attributes : List Attribute} :
      node.content = .element tag attributes → hidesChildren config node = false →
      (∀ deeper forest, ¬ Inner config index node deeper forest) →
      Kept config index node .descend

section Answers

variable {index : Block.Index} {inner : Block.Index → List Tree → Checked Plan}
  {parent : Option Tree} {state : Compiling} {node : Tree}

/-- What a pass does with an element with bindings. -/
theorem kept_of_elementPlan {tag source : String} {attributes others : List Attribute}
    {plans : List Tree → Checked Plan} {element : ElementPlan}
    (content : node.content = .element tag attributes)
    (bound : attributes.lookup config.bindingAttribute = some source)
    (made : (elementPlan plans tag source others node.children).result = .ok element) :
    Kept config index node (if element.isComplete then .skip else .descend) := by
  obtain ⟨bindings, parsed, _⟩ := result_bind made
  have hides := hidesChildren_eq content bound parsed
  have word : ∀ binding, directive? config node ≠ some (.opening binding) := by
    intro binding opening
    rw [directive?, content] at opening
    cases opening
  have scopes : ∀ {deeper forest}, Inner config index node deeper forest →
      Scoping config node tag bindings := by
    intro deeper forest within
    obtain ⟨_, _, name, known, scoping⟩ := within.scoping word
    obtain ⟨rfl, rfl⟩ := scoping.eq content bound parsed
    exact scoping
  rw [isComplete_of_elementPlan made parsed]
  cases void : isVoid tag with
  | true =>
    refine .hidden (by rw [hides, void, Bool.true_or]) fun deeper forest within => ?_
    exact absurd void (Bool.eq_false_iff.mp (scopes within).notVoid)
  | false =>
    rw [void, Bool.false_or] at hides
    unfold leavesContent
    cases value : bindings.any fun binding => binding.kind.isValue with
    | true =>
      rw [Bool.not_true, Bool.and_false]
      refine .hidden (hides.trans value) fun deeper forest within => ?_
      obtain ⟨binding, member, shows⟩ := List.any_eq_true.mp value
      exact absurd shows (Bool.eq_false_iff.mp ((scopes within).shown binding member))
    | false =>
      rw [Bool.not_false, Bool.and_true, Bool.not_not]
      have shown : ∀ binding ∈ bindings, binding.kind.isValue = false := fun binding member =>
        Bool.eq_false_iff.mpr (List.any_eq_false.mp value binding member)
      cases plans : bindings.any fun binding => binding.kind.hasPlan with
      | true =>
        exact .planned (hides.trans value) ⟨⟨attributes, source, content, bound, parsed⟩, void,
          List.any_eq_true.mp plans, shown⟩
      | false =>
        refine .entered content (hides.trans value) fun deeper forest within => ?_
        obtain ⟨binding, member, planned⟩ := (scopes within).planned
        exact List.any_eq_false.mp plans binding member planned

/-- **A node that is no start marker** is passed over with its children, or entered. -/
theorem kept_of_visit (active : state.skipUntil = none)
    (word : ∀ binding, directive? config node ≠ some (.opening binding))
    (leaf : node.content.isElement = false → node.children = [])
    (passed : (compileVisit config index inner state ⟨node, parent, true⟩).2 ≠ .stop) :
    ∃ opened action, compileVisit config index inner state ⟨node, parent, true⟩ =
      (opened, action) ∧ opened.skipUntil = none ∧ Kept config index node action := by
  have none : node.content.isElement = false →
      ∀ deeper forest, ¬ Inner config index node deeper forest := by
    intro plain deeper forest within
    obtain ⟨_, _, tag, bindings, scoping⟩ := within.scoping word
    obtain ⟨attributes, _, content, _⟩ := scoping.element
    rw [content] at plain
    cases plain
  rw [compileVisit_opening active] at passed ⊢
  cases content : node.content with
  | text text =>
    rw [content] at leaf none
    exact ⟨_, _, rfl, active, .leaf (leaf rfl) (none rfl)⟩
  | raw tag attributes text =>
    rw [content] at leaf none
    exact ⟨_, _, rfl, active, .leaf (leaf rfl) (none rfl)⟩
  | declaration text =>
    rw [content] at leaf none
    exact ⟨_, _, rfl, active, .leaf (leaf rfl) (none rfl)⟩
  | comment text =>
    rw [content] at leaf none
    have said : directive? config node = Binding.parseDirective text config := by
      rw [directive?, content]
      rfl
    simp only [visitComment]
    cases parsed : Binding.parseDirective text config with
    | none => exact ⟨_, _, rfl, active, .leaf (leaf rfl) (none rfl)⟩
    | some directive =>
      cases directive with
      | opening binding => exact absurd (said.trans parsed) (word binding)
      | closing => exact ⟨_, _, rfl, active, .leaf (leaf rfl) (none rfl)⟩
  | element tag attributes =>
    rw [content] at passed
    simp only [visitElement] at passed ⊢
    cases bound : attributes.lookup config.bindingAttribute with
    | none =>
      have unbound : ∀ deeper forest, ¬ Inner config index node deeper forest := by
        intro deeper forest within
        obtain ⟨_, _, tag, bindings, scoping⟩ := within.scoping word
        obtain ⟨others, source, same, found, _⟩ := scoping.element
        rw [content] at same
        cases same
        rw [bound] at found
        cases found
      have hides : hidesChildren config node = isVoid tag := by
        unfold hidesChildren
        simp [content, bound]
      refine ⟨_, _, rfl, active, ?_⟩
      cases void : isVoid tag with
      | true => exact .hidden (hides.trans void) unbound
      | false => exact .entered content (hides.trans void) unbound
    | some source =>
      rw [bound] at passed
      simp only at passed ⊢
      generalize made : elementPlan (inner index) tag source _ node.children = planned at passed ⊢
      cases planned with
      | mk warnings outcome =>
        cases outcome with
        | error error => exact absurd rfl passed
        | ok element =>
          exact ⟨_, _, rfl, active, kept_of_elementPlan content bound (congrArg Checked.result made)⟩

/-! ### One pass -/

theorem mem_openings_iff {log : List (Compiling × Visit)} {node : Tree} :
    node ∈ openings log ↔ ∃ state parent, (state, ⟨node, parent, true⟩) ∈ log ∧
      state.skipUntil = none := by
  unfold openings
  rw [List.mem_filterMap]
  constructor
  · rintro ⟨⟨state, ⟨seen, parent, isOpening⟩⟩, member, kept⟩
    simp only [Option.ite_none_right_eq_some, Bool.and_eq_true, Option.isNone_iff_eq_none,
      Option.some.injEq] at kept
    obtain ⟨⟨rfl, active⟩, rfl⟩ := kept
    exact ⟨state, parent, member, active⟩
  · rintro ⟨state, parent, member, active⟩
    exact ⟨_, member, by simp [active]⟩

theorem openings_append (first second : List (Compiling × Visit)) :
    openings (first ++ second) = openings first ++ openings second :=
  List.filterMap_append

/-- The opening of a node outside of blocks that are passed over. -/
theorem openings_cons (active : state.skipUntil = none) (log : List (Compiling × Visit)) :
    openings ((state, ⟨node, parent, true⟩) :: log) = node :: openings log := by
  unfold openings
  rw [List.filterMap_cons]
  simp [active]

/-- A closing is no opening. -/
theorem openings_closing (log : List (Compiling × Visit)) :
    openings ((state, ⟨node, parent, false⟩) :: log) = openings log := by
  unfold openings
  rw [List.filterMap_cons]
  simp

/-- In a block that is passed over nothing is met. -/
theorem openings_skipping {body rest : List Tree} {finish : Tree}
    (skipping : state.skipUntil = some finish.id) (others : ∀ tree ∈ body, tree.id ≠ finish.id) :
    openings (askedAll (compileVisit config index inner) parent state (body ++ finish :: rest)) =
      openings (askedAll (compileVisit config index inner) parent
        { state with skipUntil := none } rest) := by
  have passed : ∀ log tree, openings ((state, ⟨tree, parent, true⟩) :: log) = openings log := by
    intro log tree
    unfold openings
    rw [List.filterMap_cons]
    simp [skipping]
  induction body with
  | nil =>
    have answer : compileVisit config index inner state ⟨finish, parent, true⟩ =
        ({ state with skipUntil := none }, .skip) := by
      rw [compileVisit, skipping]
      simp
    rw [List.nil_append, askedAll_of_skip answer, passed]
  | cons tree body ih =>
    obtain ⟨first, later⟩ := List.forall_mem_cons.mp others
    have answer : compileVisit config index inner state ⟨tree, parent, true⟩ = (state, .skip) := by
      rw [compileVisit, skipping]
      simp [first]
    rw [List.cons_append, askedAll_of_skip answer, passed, ih later]

/-- An element that is left gets its end tag. -/
theorem compileVisit_leaving (active : state.skipUntil = none) {tag : String}
    {attributes : List Attribute} (content : node.content = .element tag attributes) :
    compileVisit config index inner state ⟨node, parent, false⟩ =
      (state.literal (tagEnd tag), .descend) := by
  obtain ⟨id, _, children⟩ := node
  cases content
  exact compileVisit_closing active id tag attributes children

/-- What is visible among siblings is what a traversal of them meets, and what is visible inside of
that. The traversal goes on after them. -/
def Meeting (config : Config) (index : Block.Index) (inner : Block.Index → List Tree → Checked Plan)
    (blocks : List Block) (nodes : List Tree) : Prop :=
  ∀ parent state final, state.skipUntil = none →
    traverseAll (compileVisit config index inner) parent state nodes = (final, none) →
      final.skipUntil = none ∧ ∀ node, IsSite config node →
        (node ∈ visible config blocks nodes ↔
          ∃ met ∈ openings (askedAll (compileVisit config index inner) parent state nodes),
            node = met ∨ Within config index met node)

theorem Meeting.nil (blocks : List Block) : Meeting config index inner blocks [] := by
  intro parent state final active passed
  rw [traverseAll_nil] at passed
  cases passed
  exact ⟨active, by simp [openings]⟩

/-- Inside of a node with a plan of its children, its children are compiled. -/
theorem within_iff_of_scoping {tight : Bool} {below : List Block} {deeper : List Tree}
    {met : Tree} (children : Pairs config tight met.children below deeper) {tag : String}
    {bindings : List Binding} (scoping : Scoping config met tag bindings) :
    Within config index met node ↔ node ∈ visible config below met.children := by
  have word : ∀ binding, directive? config met ≠ some (.opening binding) := by
    intro binding opening
    obtain ⟨_, _, content, _⟩ := scoping.element
    rw [directive?, content] at opening
    cases opening
  constructor
  · rintro ⟨deeper, content, within, _, few, _, pairs, shown⟩
    obtain ⟨rfl, rfl, _⟩ := within.scoping word
    rwa [visible_unique children pairs]
  · exact fun shown => ⟨_, _, .children scoping, _, _, _, children, shown⟩

/-- Markers have kinds that can be written as comments. -/
theorem isContainerless_of_opening {binding : Binding}
    (opening : directive? config node = some (.opening binding)) :
    binding.kind.isContainerless = true := by
  obtain ⟨text, _, said⟩ := Option.bind_eq_some_iff.mp opening
  exact Binding.isContainerless_of_parseDirective said

/-- A block holds the plan of its body, or shows a value. -/
theorem hasPlan_of_opening {binding : Binding}
    (opening : directive? config node = some (.opening binding)) :
    binding.kind.hasPlan = !binding.kind.isValue := by
  have containerless := isContainerless_of_opening opening
  revert containerless
  cases binding.kind <;> decide

/-- Inside of a block its body is compiled, unless the block shows a value. -/
theorem within_iff_of_block {binding : Binding} {start finish : Tree} {body : List Tree}
    {few : List Block} (opening : directive? config start = some (.opening binding))
    (here : index.find? start.id = some ⟨binding, start.id, finish.id, body⟩)
    (pairs : Pairs config false body few []) :
    Within config index start node ↔
      node ∈ if binding.kind.isValue then [] else visible config few body := by
  have either := hasPlan_of_opening opening
  constructor
  · rintro ⟨deeper, content, within, _, others, _, paired, shown⟩
    cases within with
    | body again planned found =>
      rw [opening] at again
      cases again
      rw [here] at found
      cases found
      rw [either, Bool.not_eq_true'] at planned
      rwa [if_neg (Bool.eq_false_iff.mp planned), visible_unique pairs paired]
    | children scoping =>
      obtain ⟨_, _, content, _⟩ := scoping.element
      have plain := isElement_of_directive opening
      rw [content] at plain
      cases plain
  · intro shown
    cases value : binding.kind.isValue with
    | true =>
      rw [value, if_pos rfl] at shown
      cases shown
    | false =>
      rw [value, if_neg (by decide)] at shown
      exact ⟨_, _, .body opening (by rw [either, value]; rfl) here, _, _, _, pairs, shown⟩

/-- **A node that is no start marker** is met, and then what follows it. -/
theorem Meeting.other {tight loose : Bool} {first : Tree} {rest deeper dangling : List Tree}
    {below blocks : List Block}
    (word : ∀ binding, directive? config first ≠ some (.opening binding))
    (leaf : first.content.isElement = false → first.children = [])
    (children : Pairs config tight first.children below deeper)
    (later : Pairs config loose rest blocks dangling) (distinct : Distinct (first :: rest))
    (under : Meeting config index inner below first.children)
    (after : Meeting config index inner blocks rest) :
    Meeting config index inner (below ++ blocks) (first :: rest) := by
  intro parent state final active passed
  have goesOn : (compileVisit config index inner state ⟨first, parent, true⟩).2 ≠ .stop := by
    intro stops
    rw [traverseAll_of_stop (Prod.ext rfl stops)] at passed
    cases passed
  obtain ⟨opened, action, answer, free, kept⟩ := kept_of_visit active word leaf goesOn
  rw [visible_other children later distinct]
  -- a node that is passed over is met with what is compiled inside of it
  have skipped : action = .skip →
      (∀ node, node ∈ (if hidesChildren config first then []
        else visible config below first.children) ↔ Within config index first node) →
      final.skipUntil = none ∧ ∀ node, IsSite config node →
        (node ∈ first :: ((if hidesChildren config first then []
            else visible config below first.children) ++ visible config blocks rest) ↔
          ∃ met ∈ openings (askedAll (compileVisit config index inner) parent state
            (first :: rest)), node = met ∨ Within config index met node) := by
    rintro rfl inside
    rw [traverseAll_of_skip answer] at passed
    obtain ⟨ended, same⟩ := after parent opened final free passed
    refine ⟨ended, fun node site => ?_⟩
    rw [askedAll_of_skip answer, openings_cons active, List.exists_mem_cons_iff, List.mem_cons,
      List.mem_append, inside, same node site, or_assoc]
  have nothing : (∀ deeper forest, ¬ Inner config index first deeper forest) →
      ∀ node, ¬ Within config index first node := by
    rintro bare node ⟨deeper, forest, within, _⟩
    exact bare deeper forest within
  cases kept with
  | hidden hides bare =>
    refine skipped rfl fun node => ?_
    rw [if_pos hides]
    exact ⟨fun impossible => (by cases impossible), fun within => absurd within (nothing bare node)⟩
  | planned hides scoping =>
    refine skipped rfl fun node => ?_
    rw [if_neg (Bool.eq_false_iff.mp hides)]
    exact (within_iff_of_scoping children scoping).symm
  | leaf childless bare =>
    refine skipped rfl fun node => ?_
    rw [childless, visible_nil, ite_self]
    exact ⟨fun impossible => (by cases impossible), fun within => absurd within (nothing bare node)⟩
  | entered content hides bare =>
    rename_i tag attributes
    rw [traverseAll_of_descend answer] at passed
    obtain ⟨middle, run, passed⟩ := exists_of_andThen passed
    obtain ⟨between, inside⟩ := under _ opened middle free run
    have closing : compileVisit config index inner middle ⟨first, parent, false⟩ =
        (middle.literal (tagEnd tag), .descend) := compileVisit_leaving between content
    rw [closing] at passed
    have left : (middle.literal (tagEnd tag)).skipUntil = none := between
    obtain ⟨ended, same⟩ := after parent _ final left passed
    refine ⟨ended, fun node site => ?_⟩
    rw [askedAll_of_descend answer run closing, openings_cons active, openings_append,
      openings_closing, List.exists_mem_cons_iff, List.mem_cons, List.mem_append,
      if_neg (Bool.eq_false_iff.mp hides), inside node site, same node site]
    simp only [List.mem_append, or_and_right, exists_or, nothing bare node, or_false]

/-- **A block** is met at its start marker, and then what follows it. -/
theorem Meeting.block {loose : Bool} {binding : Binding} {start finish : Tree}
    {body rest dangling : List Tree} {few blocks : List Block}
    (opening : directive? config start = some (.opening binding)) (leaf : start.children = [])
    (closing : directive? config finish = some .closing) (last : finish.children = [])
    (within : Pairs config false body few []) (later : Pairs config loose rest blocks dangling)
    (distinct : Distinct (start :: (body ++ finish :: rest)))
    (here : index.find? start.id = some ⟨binding, start.id, finish.id, body⟩)
    (after : Meeting config index inner blocks rest) :
    Meeting config index inner (few ++ ⟨binding, start.id, finish.id, body⟩ :: blocks)
      (start :: (body ++ finish :: rest)) := by
  intro parent state final active passed
  obtain ⟨_, _, _, ⟨_, alone⟩, _⟩ := distinct_block distinct leaf last
  have others : ∀ tree ∈ body, tree.id ≠ finish.id := fun tree member equal =>
    alone (equal ▸ id_mem_idsAll (mem_subtreesAll_of_mem member))
  have entered : compileVisit config index inner state ⟨start, parent, true⟩ = _ :=
    compileVisit_start active opening here
  cases result : scopeStep (inner (index.erase start.id)) binding body with
  | mk warnings outcome =>
    rw [result] at entered
    cases outcome with
    | error error =>
      rw [traverseAll_of_stop entered] at passed
      cases passed
    | ok step =>
      simp only [Compiling.after] at entered
      rw [traverseAll_of_skip entered, traverseAll_skipping rfl others] at passed
      obtain ⟨ended, same⟩ := after parent _ final rfl passed
      refine ⟨ended, fun node site => ?_⟩
      have ends : node ≠ finish := by
        rintro rfl
        rcases site with element | ⟨other, opens⟩
        · rw [isElement_of_directive closing] at element
          cases element
        · rw [closing] at opens
          cases opens
      rw [visible_block opening leaf closing last within later distinct,
        askedAll_of_skip entered, openings_cons active, openings_skipping rfl others,
        List.exists_mem_cons_iff, List.mem_cons, List.mem_append, List.mem_cons,
        within_iff_of_block opening here within, same node site]
      simp only [ends, false_or, or_assoc]

/-- **What is visible is what a pass meets, and what is visible inside of that.** -/
theorem meeting_of_pairs {loose : Bool} {nodes dangling : List Tree} {blocks : List Block}
    (pairs : Pairs config loose nodes blocks dangling) (distinct : Distinct nodes)
    (leafy : Leafy nodes) (found : ∀ block ∈ blocks, index.find? block.start = some block) :
    Meeting config index inner blocks nodes := by
  induction pairs with
  | nil => exact .nil []
  | other plain children later under after =>
    obtain ⟨_, _, distinctBelow, distinctLater, _⟩ := distinct.cons
    refine .other (by rw [plain]; simp) leafy.head children later distinct ?_ ?_
    · exact under distinctBelow leafy.cons.1 fun block member =>
        found block (List.mem_append_left _ member)
    · exact after distinctLater leafy.cons.2 fun block member =>
        found block (List.mem_append_right _ member)
  | dangling closing leaf later after =>
    have below : Pairs config true _ [] [] := Pairs.of_leaf leaf
    refine Meeting.other (by rw [closing]; simp) (fun _ => leaf) below later distinct ?_
      (after distinct.cons.2.2.2.1 leafy.cons.2 found)
    rw [leaf]
    exact .nil []
  | block opening leaf closing last within later _ after =>
    obtain ⟨_, _, distinctRest, _⟩ := distinct_block distinct leaf last
    refine .block opening leaf closing last within later distinct ?_ ?_
    · exact found _ (List.mem_append_right _ List.mem_cons_self)
    · exact after distinctRest leafy.cons.2.append.2.cons.2 fun block member =>
        found block (List.mem_append_right _ (List.mem_cons_of_mem _ member))

end Answers

/-! ### All passes -/

section Passes

variable {index given : Block.Index} {nodes forest : List Tree} {blocks : List Block} {plan : Plan}

/-- A part that compiles is walked to its end. -/
theorem Part.exists_final (part : Part config blocks nodes given forest) (distinct : Distinct nodes)
    (compiled : (compile config given forest).result = .ok plan) :
    ∃ final, traverseAll (passVisit config given forest) none .start forest = (final, none) := by
  obtain ⟨_, few, dangling, pairs, _, found⟩ := part.pairs
  have walked := adds_of_pairs pairs (part.distinct distinct) (Nat.le_refl _) found
    (fun fewer loose body deeper inner _ distinct pairs found =>
      compile_eq_assembled loose inner deeper fewer distinct pairs found) none .start rfl
  rw [part.compile_eq distinct] at compiled
  obtain ⟨steps, made, _⟩ := result_map compiled
  cases result : assemble config forest with
  | mk warnings outcome =>
    rw [result] at walked made
    cases made
    exact ⟨_, walked⟩

/-- **What is visible in a part is what its pass meets, and what is visible inside of that.** -/
theorem Part.mem_visible_iff (part : Part config blocks nodes given forest)
    (distinct : Distinct nodes) (leafy : Leafy nodes)
    (compiled : (compile config given forest).result = .ok plan) {loose : Bool}
    {few : List Block} {lost : List Tree} (pairs : Pairs config loose forest few lost) {node : Tree}
    (site : IsSite config node) :
    node ∈ visible config few forest ↔ ∃ state parent met,
      Meets config given forest state parent met ∧ (node = met ∨ Within config given met node) := by
  obtain ⟨final, passed⟩ := part.exists_final distinct compiled
  obtain ⟨_, own, _, paired, _, found⟩ := part.pairs
  obtain ⟨_, same⟩ := meeting_of_pairs paired (part.distinct distinct) (part.leafy leafy) found
    none .start final rfl passed
  rw [visible_unique pairs paired, same node site]
  constructor
  · rintro ⟨met, member, either⟩
    obtain ⟨state, parent, question, active⟩ := mem_openings_iff.mp member
    rw [← asked_eq_askedAll] at question
    exact ⟨state, parent, met, ⟨question, active⟩, either⟩
  · rintro ⟨state, parent, met, ⟨question, active⟩, either⟩
    rw [asked_eq_askedAll] at question
    exact ⟨met, mem_openings_iff.mpr ⟨state, parent, question, active⟩, either⟩

/-- What is visible in what a pass compiles is visible in the whole. -/
theorem visible_of_pass (whole : Part config blocks nodes index nodes) (distinct : Distinct nodes)
    (leafy : Leafy nodes) (compiled : (compile config index nodes).result = .ok plan) {node : Tree}
    (site : IsSite config node) (pass : Pass config index nodes given forest) {loose tight : Bool}
    {dangling lost : List Tree} {few : List Block} (pairs : Pairs config loose nodes blocks dangling)
    (others : Pairs config tight forest few lost) (shown : node ∈ visible config few forest) :
    node ∈ visible config blocks nodes := by
  induction pass generalizing tight few lost with
  | whole => rwa [visible_unique pairs others]
  | inner before met inner ih =>
    obtain ⟨part, _, succeeds⟩ := before.part distinct whole compiled
    obtain ⟨_, own, _, paired, _⟩ := part.pairs
    refine ih paired ((part.mem_visible_iff distinct leafy succeeds paired site).mpr ?_)
    exact ⟨_, _, _, met, Or.inr ⟨_, _, inner, _, _, _, others, shown⟩⟩

/-- What is visible is met in some pass. -/
theorem exists_pass_of_visible {loose : Bool} {dangling : List Tree}
    (pairs : Pairs config loose nodes blocks dangling) (distinct : Distinct nodes)
    (leafy : Leafy nodes) (found : ∀ block ∈ blocks, index.find? block.start = some block)
    (compiled : (compile config index nodes).result = .ok plan) {node : Tree}
    (site : IsSite config node) (shown : node ∈ visible config blocks nodes) :
    ∃ given forest state parent, Pass config index nodes given forest ∧
      Meets config given forest state parent node := by
  induction size : index.size + weightAll nodes using Nat.strongRecOn
    generalizing index nodes blocks plan loose dangling
  rename_i bound ih
  have whole := Part.whole pairs found
  obtain ⟨state, parent, met, meets, rfl | ⟨deeper, content, inner, _, few, _, others, within⟩⟩ :=
    (whole.mem_visible_iff distinct leafy compiled pairs site).mp shown
  · exact ⟨index, nodes, state, parent, .whole, meets⟩
  · obtain ⟨part, _, succeeds⟩ := inner.part distinct whole compiled meets
    obtain ⟨_, own, _, paired, _, known⟩ := part.pairs
    have smaller := inner.smaller (node_mem_of_asked meets.visited) part.sublist
    rw [visible_unique others paired] at within
    obtain ⟨given, forest, state, parent, pass, here⟩ := ih _ (size ▸ smaller) paired
      (part.distinct distinct) (part.leafy leafy) known succeeds within rfl
    exact ⟨given, forest, state, parent, (Pass.inner .whole meets inner).trans pass, here⟩

/-- **The elements and start markers that are met in some pass are those that are visible.** -/
theorem met_iff_visible {loose : Bool} {dangling : List Tree}
    (pairs : Pairs config loose nodes blocks dangling) (distinct : Distinct nodes)
    (leafy : Leafy nodes) (found : ∀ block ∈ blocks, index.find? block.start = some block)
    (compiled : (compile config index nodes).result = .ok plan) {node : Tree}
    (site : IsSite config node) :
    (∃ given forest state parent, Pass config index nodes given forest ∧
      Meets config given forest state parent node) ↔ node ∈ visible config blocks nodes := by
  constructor
  · rintro ⟨given, forest, state, parent, pass, meets⟩
    have whole := Part.whole pairs found
    obtain ⟨part, _, succeeds⟩ := pass.part distinct whole compiled
    obtain ⟨_, few, _, paired, _⟩ := part.pairs
    refine visible_of_pass whole distinct leafy compiled site pass pairs paired ?_
    exact (part.mem_visible_iff distinct leafy succeeds paired site).mpr
      ⟨state, parent, node, meets, Or.inl rfl⟩
  · exact exists_pass_of_visible pairs distinct leafy found compiled site

/-- The same, for the blocks that matching finds. -/
theorem met_iff_visible_of_matched (distinct : Distinct nodes) (leafy : Leafy nodes)
    (matched : (matchBlocks config nodes).result = .ok index)
    (compiled : (compile config index nodes).result = .ok plan) {node : Tree}
    (site : IsSite config node) :
    (∃ given forest state parent, Pass config index nodes given forest ∧
      Meets config given forest state parent node) ↔ node ∈ visible config index.blocks nodes := by
  obtain ⟨blocks, dangling, pairs, _⟩ :=
    exists_pairs_of_nested leafy (nested_of_matchBlocks distinct leafy matched)
  rw [matchBlocks_of_pairs distinct pairs] at matched
  cases matched
  rw [met_iff_visible pairs distinct leafy (fun block member => find?_of_pairs pairs distinct member)
    compiled site, visible_congr fun _ => List.mem_reverse.symm]

end Passes

end DataBind.Template
