/-
**The option against conflicts renames the language.**

With the option, bindings are taken from another attribute, and `ko` comments are left alone. A
fragment without bindings of the usual attribute and without `ko` markers means with the option
what it means without it once the other attribute is renamed to the usual one. The block matcher,
the reader of comments and the compiler of elements consult the option on their own, and all
three agree.

* `parseDirective_congr`: a comment that is no `ko` marker says the same with and without the option;
* `matchBlocks_recastAll`: forests with the same words about blocks are matched alike;
* `agrees_renamed`: a node is compiled with the option as its renamed image is without it;
* `sameOutcome_renamed`: so are whole fragments, with the same warnings, and the same error or
  templates that write the same.
-/

import DataBind.Proofs.Markup.Asking
import DataBind.Proofs.Markup.Recasting
import DataBind.Proofs.Template.Consulted
import DataBind.Proofs.Template.Container

namespace DataBind

open Markup Markup.Tree

/-! ### Comments -/

namespace Binding

open Text

/-- Whether a comment is a `ko` marker: `/ko`, or `ko` before a binding. -/
def isKoMarker (comment : String) : Bool :=
  let text := trim comment.toList
  text == ['/', 'k', 'o'] || ((afterLead? ['k', 'o'] text).bind parseOpening?).isSome

/-- **A comment that is no `ko` marker says the same** with all options. -/
theorem parseDirective_congr {comment : String} (plain : isKoMarker comment = false)
    (config other : Config) : parseDirective comment config = parseDirective comment other := by
  obtain ⟨notClosing, notOpening⟩ := Bool.or_eq_false_iff.mp plain
  -- what only looks like a marker is not read as one
  have quiet : isConflicting (trim comment.toList) = true → ∀ config,
      parseDirective comment config = none := by
    intro conflicting config
    rw [isConflicting, notClosing, Bool.or_false] at conflicting
    obtain ⟨rest, lead⟩ := Option.isSome_iff_exists.mp conflicting
    have text := afterLead?_eq_some.mp lead
    have mark : afterLead? ['k', 'o'] (trim comment.toList) = some (' ' :: rest) :=
      afterLead?_eq_some.mpr text
    have unread : parseOpening? (' ' :: rest) = none := by
      rw [mark] at notOpening
      exact Option.not_isSome_iff_eq_none.mp (Bool.eq_false_iff.mp notOpening)
    have word : (afterMark? (trim comment.toList)).bind parseOpening? = none := by
      rw [afterMark?, mark]
      exact unread
    have closes : ¬(trim comment.toList = ['/', 'k', 'o'] ∨
        trim comment.toList = ['/', 'h', 'z']) := by
      rw [text]
      rintro (same | same) <;> cases same
    rw [parseDirective]
    simp only [word, if_neg closes, Option.map_none, ite_self]
  by_cases conflicting : isConflicting (trim comment.toList) = true
  · rw [quiet conflicting, quiet conflicting]
  · have free : ∀ config : Config,
        ¬(config.noConflict && isConflicting (trim comment.toList)) = true :=
      fun config both => conflicting (Bool.and_eq_true_iff.mp both).2
    rw [parseDirective, parseDirective]
    simp only [if_neg (free config), if_neg (free other)]

end Binding

/-! ### Blocks -/

namespace Block

variable {config other : Config} {f : Content → Content}

/-- States of matching that have opened the same, and found the same to be wrong. -/
structure Parallel (state also : Matching) : Prop where
  unclosed : state.unclosed.map (fun entry => (entry.binding, markerText entry.start, entry.parent)) =
    also.unclosed.map fun entry => (entry.binding, markerText entry.start, entry.parent)
  warnings : state.warnings = also.warnings
  error : state.error = also.error

/-- What is required of the contents of a forest so that their images are matched like them. -/
structure SaysSame (config other : Config) (f : Content → Content) (node : Tree) : Prop where
  directive : directive? other (node.recast f) = directive? config node
  marker : markerText (node.recast f) = markerText node

/-- The owner of a node is the same in the image. -/
theorem map_id_recast (parent : Option Tree) :
    (parent.map (Tree.recast f)).map Tree.id = parent.map Tree.id := by
  rw [Option.map_map]
  exact congrArg (Option.map · parent) (funext id_recast)

/-- An end marker is matched alike. -/
theorem Parallel.close {state also : Matching} (parallel : Parallel state also)
    (forest nodes : List Tree) {visit : Visit}
    (marker : markerText (visit.node.recast f) = markerText visit.node) :
    Alike Parallel (close forest state (visit.recast f)) (close nodes also visit) := by
  obtain ⟨unclosed, index, warnings, error⟩ := state
  obtain ⟨others, found, _, _⟩ := also
  obtain ⟨same, rfl, rfl⟩ := parallel
  rcases unclosed with _ | ⟨innermost, outer⟩
  · cases List.map_eq_nil_iff.mp same.symm
    exact ⟨⟨rfl, congrArg (warnings ++ [Warning.danglingEnd ·]) marker, rfl⟩, rfl⟩
  · rcases others with _ | ⟨entry, rest⟩
    · cases same
    · obtain ⟨top, below⟩ := List.cons.inj same
      have text : markerText innermost.start = markerText entry.start :=
        congrArg (fun opened => opened.2.1) top
      have place : innermost.parent = entry.parent := congrArg (fun opened => opened.2.2) top
      simp only [Block.close, Visit.recast, map_id_recast, place]
      by_cases own : entry.parent = visit.parent.map Tree.id
      · rw [if_pos own, if_pos own]
        exact ⟨⟨below, rfl, rfl⟩, rfl⟩
      · rw [if_neg own, if_neg own]
        exact ⟨⟨below, rfl, congrArg (some <| CompileError.unbalancedBlock ·) text⟩, rfl⟩

/-- **One step of matching** in the images of the nodes runs parallel to the step in the nodes. -/
theorem Parallel.visit {state also : Matching} (parallel : Parallel state also)
    (forest nodes : List Tree) {visit : Visit} (said : SaysSame config other f visit.node) :
    Alike Parallel (matchVisit other forest state (visit.recast f))
      (matchVisit config nodes also visit) := by
  have closes := @Parallel.close f state also parallel forest nodes visit said.marker
  obtain ⟨node, parent, _ | _⟩ := visit
  · rw [Visit.recast, matchVisit_closing, matchVisit_closing]
    exact ⟨parallel, rfl⟩
  · rw [Visit.recast, matchVisit_opening, matchVisit_opening, said.directive]
    rcases directive? config node with _ | binding | _
    · exact ⟨parallel, rfl⟩
    · refine ⟨⟨?_, parallel.warnings, parallel.error⟩, rfl⟩
      rw [List.map_cons, List.map_cons, parallel.unclosed, map_id_recast, said.marker]
    · exact closes

/-- **Forests with the same words about blocks are matched alike**: the same is warned about, and
the same error is found or none. -/
theorem matchBlocks_recastAll {nodes : List Tree}
    (said : ∀ node ∈ subtreesAll nodes, SaysSame config other f node) :
    Checked.SameOutcome (fun _ _ => True) (matchBlocks other (recastAll f nodes))
      (matchBlocks config nodes) := by
  have step : ∀ state also visit, visit.node ∈ subtreesAll nodes → Parallel state also →
      Alike Parallel (matchVisit other (recastAll f nodes) state (visit.recast f))
        (matchVisit config nodes also visit) :=
    fun _ _ visit inside parallel => parallel.visit _ nodes (said visit.node inside)
  have start : Parallel .start .start := ⟨rfl, rfl, rfl⟩
  have walked : Parallel (matchSiblings other (recastAll f nodes) none .start (recastAll f nodes)).1
      (matchSiblings config nodes none .start nodes).1 := by
    have image := traverseAll_recastAll (f := f) (matchVisit other (recastAll f nodes)) none .start
      nodes
    rw [Option.map_none] at image
    rw [matchSiblings, matchSiblings, image]
    exact (traverseAll_related step none start).state
  rw [matchBlocks_eq, matchBlocks_eq]
  revert walked
  generalize (matchSiblings other (recastAll f nodes) none .start (recastAll f nodes)).1 = final
  generalize (matchSiblings config nodes none .start nodes).1 = finish
  obtain ⟨unclosed, index, warnings, error⟩ := final
  obtain ⟨others, found, _, _⟩ := finish
  rintro ⟨same, rfl, rfl⟩
  rcases error with _ | error
  · rcases unclosed with _ | ⟨innermost, outer⟩
    · cases List.map_eq_nil_iff.mp same.symm
      exact ⟨rfl, trivial⟩
    · rcases others with _ | ⟨entry, rest⟩
      · cases same
      · obtain ⟨top, _⟩ := List.cons.inj same
        have text : markerText innermost.start = markerText entry.start :=
          congrArg (fun opened => opened.2.1) top
        exact ⟨rfl, congrArg CompileError.unclosedBlock text⟩
  · exact ⟨rfl, rfl⟩

end Block

namespace Template

open Block Checked

/-! ### Elements -/

/-- An attribute, of which the other binding attribute gets the usual name. -/
def renamedAttribute (entry : Attribute) : Attribute :=
  if entry.1 = "data-htmlizer" then ("data-bind", entry.2) else entry

/-- The content of a node, where the bindings of an element stand in the usual attribute. Raw text
elements have no bindings. -/
def renamed : Content → Content
  | .element tag attributes => .element tag (attributes.map renamedAttribute)
  | content => content

/-- Whether a node means nothing that the option against conflicts leaves alone: it is no element
with the usual binding attribute, and no `ko` marker. -/
def Unconflicting : Content → Prop
  | .element _ attributes => ∀ entry ∈ attributes, entry.1 ≠ "data-bind"
  | .comment text => Binding.isKoMarker text = false
  | _ => True

instance (content : Content) : Decidable (Unconflicting content) :=
  match content with
  | .element _ attributes =>
    inferInstanceAs (Decidable (∀ entry ∈ attributes, entry.1 ≠ "data-bind"))
  | .comment text => inferInstanceAs (Decidable (Binding.isKoMarker text = false))
  | .text _ | .raw _ _ _ | .declaration _ => inferInstanceAs (Decidable True)

variable {config : Config} {attributes : List Attribute}

theorem bindingAttribute_of_conflict (conflict : config.noConflict = true) :
    config.bindingAttribute = "data-htmlizer" :=
  if_pos conflict

theorem bindingAttribute_of_free (free : config.noConflict = false) :
    config.bindingAttribute = "data-bind" :=
  if_neg (Bool.eq_false_iff.mp free)

/-- The bindings of an element are found under the usual name. -/
theorem lookup_renamed (unbound : ∀ entry ∈ attributes, entry.1 ≠ "data-bind") :
    (attributes.map renamedAttribute).lookup "data-bind" = attributes.lookup "data-htmlizer" := by
  induction attributes with
  | nil => rfl
  | cons entry rest ih =>
    obtain ⟨other, later⟩ := List.forall_mem_cons.mp unbound
    obtain ⟨name, value⟩ := entry
    rw [List.map_cons, renamedAttribute]
    by_cases same : name = "data-htmlizer"
    · rw [if_pos same, same, List.lookup_cons_self, List.lookup_cons_self]
    · have unusual : ("data-bind" == name) = false := beq_false_of_ne (Ne.symm other)
      have unbinding : ("data-htmlizer" == name) = false := beq_false_of_ne (Ne.symm same)
      rw [if_neg same, List.lookup_cons, List.lookup_cons, unusual, unbinding]
      exact ih later

/-- The attributes without bindings are the same. -/
theorem filter_renamed (unbound : ∀ entry ∈ attributes, entry.1 ≠ "data-bind") :
    (attributes.map renamedAttribute).filter (fun entry => entry.1 != "data-bind") =
      attributes.filter fun entry => entry.1 != "data-htmlizer" := by
  induction attributes with
  | nil => rfl
  | cons entry rest ih =>
    obtain ⟨other, later⟩ := List.forall_mem_cons.mp unbound
    rw [List.map_cons, renamedAttribute, List.filter_cons, List.filter_cons, ih later]
    by_cases same : entry.1 = "data-htmlizer"
    · simp [same]
    · simp [same, other]

/-- Nothing is renamed in an element without bindings. -/
theorem map_renamed (missing : attributes.lookup "data-htmlizer" = none) :
    attributes.map renamedAttribute = attributes := by
  have kept : ∀ entry ∈ attributes, renamedAttribute entry = id entry := by
    intro entry member
    have other := List.lookup_eq_none_iff.mp missing entry member
    exact if_neg (Ne.symm (bne_iff_ne.mp other))
  rw [List.map_congr_left kept, List.map_id]

/-- **A node is compiled with the option as its renamed image is without it.** -/
theorem agrees_renamed {other : Config} (conflict : config.noConflict = true)
    (free : other.noConflict = false) {node : Tree} (plain : Unconflicting node.content) :
    Agrees config other (Tree.recast renamed) node := by
  have children := (children_recast (f := renamed) node).trans (recastAll_eq_map node.children)
  obtain ⟨id, content, below⟩ := node
  have image : (Markup.Tree.node id content below).recast renamed =
      .node id (renamed content) (recastAll renamed below) := by
    rw [Tree.recast]
  rcases content with ⟨tag, attributes⟩ | text | text | ⟨tag, attributes, text⟩ | text
  · -- the bindings and the other attributes of an element
    have found := lookup_renamed plain
    have others := filter_renamed plain
    refine ⟨children, by rw [image]; rfl, fun inner also under same => ?_⟩
    rw [image] at same ⊢
    simp only [renamed, nodeSteps, bindingAttribute_of_conflict conflict,
      bindingAttribute_of_free free, found, others]
    rcases bound : attributes.lookup "data-htmlizer" with _ | source
    · simp only [map_renamed bound]
    · simp only [Tree.children] at same
      simp only [elementPlan_congr same]
  · exact ⟨children, by rw [image]; rfl, fun _ _ _ _ => by rw [image]; rfl⟩
  · -- what a comment says
    have word := Binding.parseDirective_congr plain other config
    refine ⟨children, by rw [image]; exact word, fun inner also under _ => ?_⟩
    rw [image]
    simp only [renamed, nodeSteps, word]
  · exact ⟨children, by rw [image]; rfl, fun _ _ _ _ => by rw [image]; rfl⟩
  · exact ⟨children, by rw [image]; rfl, fun _ _ _ _ => by rw [image]; rfl⟩

/-- A node says the same about blocks with the option as its image does without it. -/
theorem saysSame_renamed {other : Config} (conflict : config.noConflict = true)
    (free : other.noConflict = false) {node : Tree} (plain : Unconflicting node.content) :
    SaysSame config other renamed node := by
  refine ⟨(agrees_renamed conflict free plain).directive, ?_⟩
  rw [markerText, markerText, content_recast]
  rcases node.content with ⟨tag, attributes⟩ | text | text | ⟨tag, attributes, text⟩ | text <;> rfl

/-! ### Plans -/

/-- The same outcome of a first step, whose value is not used. -/
theorem bind_of_sameOutcome {α β γ : Type} {related : α → β → Prop} {first : Checked α}
    {second : Checked β} (same : SameOutcome related first second) (next : Checked γ) :
    (first >>= fun _ => next) = second >>= fun _ => next := by
  obtain ⟨warnings, _ | value⟩ := first
  · obtain ⟨_, _ | value⟩ := second
    · obtain ⟨rfl, rfl⟩ := same
      rfl
    · cases same.2
  · obtain ⟨_, _ | value⟩ := second
    · cases same.2
    · obtain ⟨rfl, _⟩ := same
      rfl

/-- **Planning is matching and then assembling**; the blocks that are found are not used. -/
theorem planOf_eq_bind {nodes : List Tree} (distinct : Distinct nodes) (leafy : Leafy nodes) :
    planOf config nodes = matchBlocks config nodes >>= fun _ => assembled config nodes := by
  rcases outcome : (matchBlocks config nodes).result with error | index
  · rw [planOf, bind_error _ outcome, bind_error _ outcome]
  · have nested := nested_of_matchBlocks distinct leafy outcome
    obtain ⟨blocks, dangling, pairs, _⟩ := exists_pairs_of_nested leafy nested
    rw [planOf, matchBlocks_of_pairs distinct pairs, bind_ok, bind_ok,
      compile_eq_assembled true blocks dangling _ distinct pairs fun block member =>
        find?_of_pairs pairs distinct member]

/-- **The plan of a forest with the option** is the plan of its renamed image without it. -/
theorem planOf_renamed {other : Config} (conflict : config.noConflict = true)
    (free : other.noConflict = false) {nodes : List Tree} (distinct : Distinct nodes)
    (leafy : Leafy nodes) (plain : ∀ node ∈ subtreesAll nodes, Unconflicting node.content) :
    planOf other (recastAll renamed nodes) = planOf config nodes := by
  have elements : ∀ content, (renamed content).isElement = content.isElement := fun content => by
    rcases content with ⟨tag, attributes⟩ | text | text | ⟨tag, attributes, text⟩ | text <;> rfl
  have matched := matchBlocks_recastAll fun node inside =>
    saysSame_renamed conflict free (plain node inside)
  have steps : assembled other (recastAll renamed nodes) = assembled config nodes := by
    rw [recastAll_eq_map, assembled, assemble_map fun node inside =>
      agrees_renamed conflict free (plain node inside), assembled]
  rw [planOf_eq_bind distinct leafy, planOf_eq_bind distinct.recastAll (leafy.recastAll elements),
    steps, bind_of_sameOutcome matched]

/-! ### Templates -/

/-- Rendering does not depend on the option against conflicts. -/
theorem renderAll_of_warnEval {evaluator : Evaluator} {other : Config}
    (same : config.warnEval = other.warnEval) (context : Context) (plan : Plan) :
    renderAll ⟨evaluator, config⟩ context plan = renderAll ⟨evaluator, other⟩ context plan := by
  have agree : ∀ consultation ∈ consultations ⟨evaluator, config⟩ [] context plan,
      Runtime.evaluate ⟨evaluator, config⟩ consultation.context consultation.expression =
        Runtime.evaluate ⟨evaluator, other⟩ consultation.context consultation.expression := by
    intro consultation _
    rw [Runtime.evaluate, Runtime.evaluate, same]
  exact (renderAll_congr plan agree).1

/-- **The option against conflicts renames the language.** A fragment whose elements do not have
the usual binding attribute, and whose comments are no `ko` markers, has with the option the outcome
that it has without it once the other binding attribute is renamed to the usual one: the same
warnings, and the same error or templates that write the same. -/
theorem sameOutcome_renamed (evaluator : Evaluator) (warnEval : Bool) {fragment : Fragment}
    (grown : fragment.Grown)
    (plain : ∀ (id : NodeId) (slot : Slot), fragment.slots[id]? = some slot →
       Unconflicting slot.content) :
    SameOutcome RendersAlike
      (ofFragment evaluator { noConflict := true, warnEval } fragment)
      (ofFragment evaluator { noConflict := false, warnEval } (fragment.recast renamed)) := by
  have nodes : ∀ node ∈ subtreesAll fragment.rootTrees, Unconflicting node.content := by
    intro node inside
    obtain ⟨slot, found, content, _⟩ := Fragment.slot_of_mem_subtreesAll inside
    exact content ▸ plain _ slot found
  have plan : planOf ⟨false, warnEval⟩ (fragment.recast renamed).rootTrees =
      planOf ⟨true, warnEval⟩ fragment.rootTrees := by
    rw [Fragment.rootTrees_recast]
    exact planOf_renamed rfl rfl grown.distinct grown.leafy nodes
  show SameOutcome RendersAlike (ofTrees evaluator ⟨true, warnEval⟩ fragment.rootTrees)
    (ofTrees evaluator ⟨false, warnEval⟩ (fragment.recast renamed).rootTrees)
  unfold ofTrees
  rw [plan]
  obtain ⟨warnings, _ | plan⟩ := planOf ⟨true, warnEval⟩ fragment.rootTrees
  · exact ⟨rfl, rfl⟩
  · exact ⟨rfl, fun evaluator data =>
      @renderAll_of_warnEval ⟨true, warnEval⟩ evaluator ⟨false, warnEval⟩ rfl
        (Context.root data) plan⟩

/-- A paragraph with a binding of the other attribute, and a block with a comment that only looks
like a marker. -/
def boundNote : String :=
  "<p data-htmlizer=\"text: a\"></p><!--hz if: a--><!--ko b--><!--/hz-->"

/-- The same with a binding of the usual attribute. -/
def usualNote : String :=
  "<p data-bind=\"text: a\"></p><!--hz if: a--><!--ko b--><!--/hz-->"

/-- The note with the option against conflicts, and without. -/
theorem sameOutcome_renamed_note :
    SameOutcome RendersAlike (ofMarkup CommandLine.evaluator { noConflict := true } boundNote)
      (ofMarkup CommandLine.evaluator {} usualNote) := by
  have read : ((Markup.parse boundNote).toOption.any fun first : Fragment =>
      (Markup.parse usualNote).toOption.any fun second : Fragment => decide (
        second.rootTrees = recastAll renamed first.rootTrees ∧
          ∀ slot ∈ first.slots.toList, Unconflicting slot.content)) = true := by
    decide +kernel
  obtain ⟨first, parsed, read⟩ := exists_of_parse_any read
  obtain ⟨second, also, read⟩ := exists_of_parse_any read
  obtain ⟨image, plain⟩ := of_decide_eq_true read
  have same := sameOutcome_renamed CommandLine.evaluator false (grown_of_parse parsed)
    fun id slot found => plain slot (Array.mem_toList_iff.mpr (Array.mem_of_getElem? found))
  have roots : (first.recast renamed).rootTrees = second.rootTrees :=
    (Fragment.rootTrees_recast first).trans image.symm
  have moved : ofFragment CommandLine.evaluator {} (first.recast renamed) =
      ofFragment CommandLine.evaluator {} second :=
    congrArg (ofTrees CommandLine.evaluator {}) roots
  rw [moved] at same
  rw [ofMarkup, ofMarkup, parsed, also]
  exact same

end Template

end DataBind
