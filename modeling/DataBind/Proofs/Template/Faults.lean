/-
**What can be wrong with a node.**

Compiling checks the binding attribute of an element and the value of a start marker. Of all that
is wrong in the visible nodes of a forest the first in document order is reported.

* `fault?`: the first error in a node;
* `Valid`, `fault?_eq_none_iff`: the nodes without an error;
* `error?_elementPlan`, `error?_nodeSteps`: the error of an element is its own, or that of its
  children;
* `error?_assemble`: the error of a forest is the first one of its visible nodes.
-/

import DataBind.Proofs.Template.Reach

namespace DataBind

namespace Checked

variable {α β : Type}

/-- The error of a result that is none. -/
def error? (checked : Checked α) : Option CompileError :=
  match checked.result with
  | .error error => some error
  | .ok _ => none

theorem error?_of_ok {checked : Checked α} {value : α} (passed : checked.result = .ok value) :
    checked.error? = none := by
  rw [error?, passed]

theorem error?_eq_some {checked : Checked α} {error : CompileError} :
    checked.error? = some error ↔ checked.result = .error error := by
  unfold error?
  cases checked.result with
  | error other => simp
  | ok value => simp

theorem error?_eq_none {checked : Checked α} :
    checked.error? = none ↔ ∃ value, checked.result = .ok value := by
  unfold error?
  cases checked.result with
  | error other => simp
  | ok value => simp

@[simp] theorem error?_pure (value : α) : (pure value : Checked α).error? = none := rfl

@[simp] theorem error?_map (f : α → β) (checked : Checked α) :
    (f <$> checked).error? = checked.error? := by
  obtain ⟨warnings, _ | value⟩ := checked
  · rfl
  · rfl

/-- After a step that gives a value, the error of what follows. -/
theorem error?_bind_of_ok {first : Checked α} {value : α} (passed : first.result = .ok value)
    (next : α → Checked β) : (first >>= next).error? = (next value).error? := by
  obtain ⟨warnings, _ | found⟩ := first
  · cases passed
  · cases passed
    rfl

theorem error?_bind_of_error {first : Checked α} {error : CompileError}
    (failed : first.result = .error error) (next : α → Checked β) :
    (first >>= next).error? = some error := by
  rw [bind_error next failed]
  rfl

/-- A step that is followed by steps with the same error for all of its values. -/
theorem error?_bind_const {first : Checked α} {next : α → Checked β} {later : Option CompileError}
    (same : ∀ value, first.result = .ok value → (next value).error? = later) :
    (first >>= next).error? = first.error?.or later := by
  cases made : first.result with
  | error error =>
    rw [error?_bind_of_error made, error?_eq_some.mpr made]
    rfl
  | ok value => rw [error?_bind_of_ok made, error?_of_ok made, Option.none_or, same value made]

/-- A step that is followed by a certain value. -/
theorem error?_bind_pure (first : Checked α) (f : α → β) :
    (first >>= fun value => pure (f value)).error? = first.error? := by
  obtain ⟨warnings, _ | value⟩ := first
  · rfl
  · rfl

/-- The first error of two. -/
@[simp] theorem error?_both (first second : Checked (List α)) :
    (both first second).error? = first.error?.or second.error? := by
  obtain ⟨early, _ | found⟩ := first
  · rfl
  · obtain ⟨late, _ | more⟩ := second
    · rfl
    · rfl

end Checked

namespace Template

open Markup Markup.Tree Block Checked

variable {config : Config}

/-! ### Faults -/

/-- The error of a value that should be an object literal. -/
def literalFault? (source : String) : Option CompileError :=
  match Binding.entriesOf source with
  | .error error => some error
  | .ok _ => none

/-- The error of a value that should describe an iteration. -/
def iterationFault? (source : String) : Option CompileError :=
  match Binding.parseIteration source with
  | .error error => some (.objectLiteral source error)
  | .ok _ => none

/-- The error of a binding that changes the start tag of its element. -/
def tagFault? (binding : Binding) : Option CompileError :=
  match binding.kind with
  | .attributes | .styles => literalFault? binding.source
  | .classes =>
    let source := Text.trimmed binding.source
    if source.toList.head? = some '\x7b' then literalFault? source else none
  | _ => none

/-- The first error of an element with a binding attribute: of the attribute as a whole, of bindings
that conflict, of those that change the start tag in the order written, and of the iteration, which
only an element that can have children has. -/
def elementFault? (tag source : String) : Option CompileError :=
  match Binding.entriesOf source with
  | .error error => some error
  | .ok entries =>
    let bindings := Binding.bindingsOf entries
    (Binding.conflict? bindings).or <| (bindings.findSome? tagFault?).or <|
      if isVoid tag then none else (Binding.valueOf? .forEach entries).bind iterationFault?

/-- The first error of a node by itself. -/
def fault? (config : Config) (node : Tree) : Option CompileError :=
  match node.content with
  | .element tag attributes =>
    (attributes.lookup config.bindingAttribute).bind (elementFault? tag)
  | .comment text =>
    match Binding.parseDirective text config with
    | some (.opening ⟨.forEach, source⟩) => iterationFault? source
    | _ => none
  | _ => none

/-! ### Valid nodes -/

/-- A text that is an object literal. -/
def IsLiteral (source : String) : Prop :=
  ∃ entries, Binding.parseObjectLiteral source = .ok entries

/-- A text that describes an iteration. -/
def IsIteration (source : String) : Prop :=
  ∃ iteration, Binding.parseIteration source = .ok iteration

/-- What is required of the entries of a binding attribute. -/
structure ValidEntries (tag : String) (entries : List (String × String)) : Prop where
  /-- At most one of the kinds that control the content is named. -/
  single : ∀ first second, first.controlsContent = true → second.controlsContent = true →
    (Binding.valueOf? first entries).isSome = true →
    (Binding.valueOf? second entries).isSome = true → first = second
  attributes : ∀ source ∈ Binding.valueOf? .attributes entries, IsLiteral source
  styles : ∀ source ∈ Binding.valueOf? .styles entries, IsLiteral source
  classes : ∀ source ∈ Binding.valueOf? .classes entries,
    (Text.trimmed source).toList.head? = some '\x7b' → IsLiteral (Text.trimmed source)
  iteration : isVoid tag = false →
    ∀ source ∈ Binding.valueOf? .forEach entries, IsIteration source

/-- What is required of a node. -/
def Valid (config : Config) (node : Tree) : Prop :=
  match node.content with
  | .element tag attributes => ∀ source ∈ attributes.lookup config.bindingAttribute,
    ∃ entries, Binding.parseObjectLiteral source = .ok entries ∧ ValidEntries tag entries
  | .comment text => ∀ source,
    Binding.parseDirective text config = some (.opening ⟨.forEach, source⟩) → IsIteration source
  | _ => True

theorem literalFault?_eq_none {source : String} :
    literalFault? source = none ↔ IsLiteral source := by
  unfold literalFault? IsLiteral Binding.entriesOf
  cases Binding.parseObjectLiteral source with
  | error error => simp
  | ok entries => simp

theorem iterationFault?_eq_none {source : String} :
    iterationFault? source = none ↔ IsIteration source := by
  unfold iterationFault? IsIteration
  cases Binding.parseIteration source with
  | error error => simp
  | ok iteration => simp

/-- The bindings of a start tag are as they should be. -/
theorem findSome?_tagFault?_eq_none {entries : List (String × String)} :
    (Binding.bindingsOf entries).findSome? tagFault? = none ↔
      (∀ source ∈ Binding.valueOf? .attributes entries, IsLiteral source) ∧
      (∀ source ∈ Binding.valueOf? .styles entries, IsLiteral source) ∧
      (∀ source ∈ Binding.valueOf? .classes entries,
        (Text.trimmed source).toList.head? = some '\x7b' → IsLiteral (Text.trimmed source)) := by
  rw [List.findSome?_eq_none_iff, Binding.forall_mem_bindingsOf]
  constructor
  · intro sound
    refine ⟨fun source value => ?_, fun source value => ?_, fun source value brace => ?_⟩
    · exact literalFault?_eq_none.mp (sound .attributes source value)
    · exact literalFault?_eq_none.mp (sound .styles source value)
    · have quiet := sound .classes source value
      rw [tagFault?] at quiet
      simp only [brace, if_true] at quiet
      exact literalFault?_eq_none.mp quiet
  · rintro ⟨attributes, styles, classes⟩ kind source value
    cases kind with
    | attributes => exact literalFault?_eq_none.mpr (attributes source value)
    | styles => exact literalFault?_eq_none.mpr (styles source value)
    | classes =>
      rw [tagFault?]
      simp only
      split
      · rename_i brace
        exact literalFault?_eq_none.mpr (classes source value brace)
      · rfl
    | _ => rfl

/-- **The nodes without an error are the valid ones.** -/
theorem fault?_eq_none_iff {node : Tree} : fault? config node = none ↔ Valid config node := by
  unfold fault? Valid
  cases node.content with
  | text _ => simp
  | raw _ _ _ => simp
  | declaration _ => simp
  | comment text =>
    simp only
    split
    · rename_i source said
      rw [said, iterationFault?_eq_none]
      simp
    · rename_i other
      refine iff_of_true rfl fun source said => absurd said (other source)
  | element tag attributes =>
    simp only
    cases bound : attributes.lookup config.bindingAttribute with
    | none => simp
    | some source =>
      simp only [Option.bind_some, Option.mem_def, Option.some.injEq, forall_eq']
      unfold elementFault? Binding.entriesOf
      cases Binding.parseObjectLiteral source with
      | error error => simp
      | ok entries =>
        simp only [Option.or_eq_none_iff, Binding.conflict?_eq_none_iff,
          findSome?_tagFault?_eq_none, Except.ok.injEq, exists_eq_left']
        have last : (if isVoid tag = true then none
            else (Binding.valueOf? .forEach entries).bind iterationFault?) = none ↔
            (isVoid tag = false →
              ∀ source ∈ Binding.valueOf? .forEach entries, IsIteration source) := by
          cases isVoid tag with
          | true => simp
          | false => simp [Option.bind_eq_none_iff, iterationFault?_eq_none]
        rw [last]
        constructor
        · rintro ⟨single, ⟨attributes, styles, classes⟩, iteration⟩
          exact ⟨single, attributes, styles, classes, iteration⟩
        · rintro ⟨single, attributes, styles, classes, iteration⟩
          exact ⟨single, ⟨attributes, styles, classes⟩, iteration⟩

/-! ### The errors of the parts of an element -/

theorem error?_lift_entriesOf (source : String) :
    (lift (Binding.entriesOf source)).error? = literalFault? source := by
  unfold literalFault?
  cases Binding.entriesOf source with
  | error error => rfl
  | ok entries => rfl

theorem error?_lift_map {α β : Type} (result : Except CompileError α) (f : α → β) :
    (lift (result.map f)).error? = (lift result).error? := by
  cases result with
  | error error => rfl
  | ok value => rfl

theorem error?_bindingSteps (binding : Binding) (attributes : List Attribute) :
    (lift (bindingSteps binding attributes)).error? = tagFault? binding := by
  have returned : ∀ {α β : Type} (result : Except CompileError α) (f : α → β),
      (lift (result >>= fun value => pure (f value))).error? = (lift result).error? := by
    intro α β result f
    cases result with
    | error error => rfl
    | ok value => rfl
  obtain ⟨kind, source⟩ := binding
  cases kind with
  | attributes => exact (returned _ _).trans (error?_lift_entriesOf source)
  | styles =>
    exact ((returned _ _).trans (error?_lift_map _ _)).trans (error?_lift_entriesOf source)
  | classes =>
    refine (returned _ _).trans ?_
    unfold classStep tagFault?
    simp only
    cases brace : (Text.trimmed source).toList with
    | nil => simp [lift, error?]
    | cons first rest =>
      by_cases same : first = '\x7b'
      · subst same
        simp only [List.head?_cons, if_true]
        exact (error?_lift_map _ _).trans (error?_lift_entriesOf _)
      · have other : (first :: rest).head? ≠ some '\x7b' := by simpa using same
        rw [if_neg other]
        split
        · rename_i also
          cases also
          exact absurd rfl same
        · rfl
  | _ => rfl

/-- The error of a start tag is that of its first wrong binding. -/
theorem error?_allBindingSteps (bindings : List Binding) (attributes : List Attribute) :
    (lift (allBindingSteps bindings attributes)).error? = bindings.findSome? tagFault? := by
  induction bindings generalizing attributes with
  | nil => rfl
  | cons binding rest ih =>
    have first := error?_bindingSteps binding attributes
    rw [List.findSome?_cons, allBindingSteps]
    cases made : bindingSteps binding attributes with
    | error error =>
      rw [made] at first
      rw [← first]
      rfl
    | ok pair =>
      obtain ⟨steps, left⟩ := pair
      rw [made] at first
      rw [← first]
      have later := ih left
      cases others : allBindingSteps rest left with
      | error error =>
        rw [others] at later
        simp only [bind, Except.bind, others]
        exact later
      | ok more =>
        rw [others] at later
        simp only [bind, Except.bind, others]
        exact later

variable {inner : List Tree → Checked Plan} {body children : List Tree}

/-- The error of the step of a binding: of its iteration, and then of its body. -/
theorem error?_scopeStep (binding : Binding) :
    (scopeStep inner binding body).error? =
      (if binding.kind = .forEach then iterationFault? binding.source else none).or
        (if binding.kind.hasPlan then (inner body).error? else none) := by
  obtain ⟨kind, source⟩ := binding
  have planned : ∀ f : Plan → Option Step,
      (inner body >>= fun plan => pure (f plan)).error? = (inner body).error? :=
    fun f => error?_bind_pure _ f
  cases kind with
  | showIf => exact planned _
  | showIfNot => exact planned _
  | scope => exact planned _
  | forEach =>
    unfold scopeStep iterationFault?
    simp only [if_true]
    cases Binding.parseIteration source with
    | error error => rfl
    | ok iteration => exact planned _
  | _ => rfl

variable {entries : List (String × String)}

/-- The binding that controls the content of an element is the one of its kind. -/
theorem contentBinding?_of_valueOf? {kind : Binding.Kind} {source : String}
    (quiet : Binding.conflict? (Binding.bindingsOf entries) = none)
    (kinds : kind = .forEach ∨ kind.isValue = true)
    (value : Binding.valueOf? kind entries = some source) :
    contentBinding? (Binding.bindingsOf entries) = some ⟨kind, source⟩ := by
  have controls : ∀ kind : Binding.Kind, kind = .forEach ∨ kind.isValue = true →
      kind.controlsContent = true := by
    intro kind either
    cases kind <;> simp_all [Binding.Kind.isValue, Binding.Kind.controlsContent]
  cases found : contentBinding? (Binding.bindingsOf entries) with
  | none =>
    have none := List.find?_eq_none.mp found _ (Binding.mem_bindingsOf.mpr value)
    cases kind <;> simp_all [Binding.Kind.isValue]
  | some other =>
    obtain ⟨also, text⟩ := other
    have member := Binding.mem_bindingsOf.mp (List.mem_of_find?_eq_some found)
    have either : also = .forEach ∨ also.isValue = true := by
      have kept := List.find?_some found
      cases also <;> simp_all [Binding.Kind.isValue]
    have same := Binding.conflict?_eq_none_iff.mp quiet also kind (controls also either)
      (controls kind kinds) (Option.isSome_of_mem member) (Option.isSome_of_mem value)
    subst same
    rw [value, Option.some.injEq] at member
    rw [member]

/-- **The error of the content of an element**: of its iteration, and then of its children, unless
they are replaced by a value. -/
theorem error?_innerSteps (quiet : Binding.conflict? (Binding.bindingsOf entries) = none) :
    (innerSteps inner (Binding.bindingsOf entries) children).error? =
      ((Binding.valueOf? .forEach entries).bind iterationFault?).or
        (if (Binding.bindingsOf entries).any fun binding => binding.kind.isValue then none
          else (inner children).error?) := by
  by_cases shows : ∃ binding ∈ Binding.bindingsOf entries, binding.kind.isValue = true
  · -- a value: there is no iteration, and the step has no error
    obtain ⟨⟨kind, source⟩, member, value⟩ := shows
    have named := Binding.mem_bindingsOf.mp member
    have content := contentBinding?_of_valueOf? quiet (Or.inr value) named
    have iteration : Binding.valueOf? .forEach entries = none := by
      cases other : Binding.valueOf? .forEach entries with
      | none => rfl
      | some text =>
        have also := contentBinding?_of_valueOf? quiet (Or.inl rfl) other
        rw [content] at also
        cases also
        cases value
    have some : ((Binding.bindingsOf entries).any fun binding => binding.kind.isValue) = true :=
      List.any_eq_true.mpr ⟨_, member, value⟩
    rw [innerSteps, content, iteration, some]
    simp only [error?_map, error?_scopeStep, if_true]
    cases kind with
    | text => rfl
    | html => rfl
    | _ => cases value
  · have none : ((Binding.bindingsOf entries).any fun binding => binding.kind.isValue) = false := by
      rw [List.any_eq_false]
      exact fun binding member value => shows ⟨binding, member, value⟩
    rw [innerSteps, none]
    cases iteration : Binding.valueOf? .forEach entries with
    | some source =>
      rw [contentBinding?_of_valueOf? quiet (Or.inl rfl) iteration]
      simp only [error?_map, error?_scopeStep, Binding.Kind.hasPlan, Option.bind_some, if_true,
        Bool.false_eq_true, if_false]
    | none =>
      have free : contentBinding? (Binding.bindingsOf entries) = Option.none := by
        rw [contentBinding?_eq fun binding member =>
          Bool.eq_false_iff.mpr fun value => shows ⟨binding, member, value⟩,
          Binding.find?_bindingsOf, iteration]
        rfl
      rw [free]
      rfl

/-- Whether the children of an element get a plan of their own: it can have children, some binding
holds a plan, and none writes a value. -/
def plansContent (tag : String) (bindings : List Binding) : Bool :=
  !isVoid tag && (bindings.any fun binding => binding.kind.hasPlan) &&
    !(bindings.any fun binding => binding.kind.isValue)

/-- The error of an element behind its start tag: of its iteration, and then of its children. -/
theorem error?_finishElement {tag : String} (opening : List Step)
    (quiet : Binding.conflict? (Binding.bindingsOf entries) = none) :
    (finishElement inner tag (Binding.bindingsOf entries) children opening).error? =
      (if isVoid tag then none else (Binding.valueOf? .forEach entries).bind iterationFault?).or
        (if plansContent tag (Binding.bindingsOf entries) then (inner children).error? else none)
    := by
  rw [finishElement]
  cases leaves : leavesContent (Binding.bindingsOf entries) with
  | true =>
    -- nothing is compiled inside
    simp only [leavesContent, Bool.and_eq_true, Bool.not_eq_true'] at leaves
    have iteration : Binding.valueOf? .forEach entries = none := by
      cases value : Binding.valueOf? .forEach entries with
      | none => rfl
      | some source =>
        have member := Binding.mem_bindingsOf.mpr value
        exact absurd rfl (List.any_eq_false.mp leaves.1 _ member)
    simp [iteration, plansContent, leaves.1]
  | false =>
    cases void : isVoid tag with
    | true =>
      rw [plansContent, void]
      rfl
    | false =>
      refine (error?_bind_pure _ _).trans ((error?_bind_pure _ _).trans ?_)
      rw [error?_innerSteps quiet, plansContent, void]
      cases shows : (Binding.bindingsOf entries).any fun binding => binding.kind.isValue with
      | true => simp
      | false =>
        have planned : ((Binding.bindingsOf entries).any fun binding =>
            binding.kind.hasPlan) = true := by
          simpa [leavesContent, shows] using leaves
        rw [planned]
        rfl

/-- **The error of an element** with bindings that do not conflict: its own, or that of its children
where they have a plan. -/
theorem error?_elementPlan {tag source : String} {attributes : List Attribute}
    {bindings : List Binding} (parsed : (Binding.parseContainer source tag).result = .ok bindings) :
    (elementPlan inner tag source attributes children).error? =
      (elementFault? tag source).or
        (if plansContent tag bindings then (inner children).error? else none) := by
  obtain ⟨entries, read, rfl, quiet⟩ := Binding.exists_of_parseContainer parsed
  have own : elementFault? tag source =
      ((Binding.bindingsOf entries).findSome? tagFault?).or
        (if isVoid tag then none else (Binding.valueOf? .forEach entries).bind iterationFault?) := by
    rw [elementFault?, read]
    simp only [quiet, Option.none_or]
  have tagged := error?_allBindingSteps (Binding.bindingsOf entries) attributes
  rw [elementPlan_eq, error?_bind_of_ok parsed, own, ← tagged, Option.or_assoc]
  cases made : (lift (allBindingSteps (Binding.bindingsOf entries) attributes)).result with
  | error error =>
    rw [error?_bind_of_error made, error?_eq_some.mpr made]
    rfl
  | ok pair =>
    rw [error?_bind_of_ok made, error?_of_ok made, Option.none_or, error?_finishElement _ quiet]

/-- The error of bindings that cannot be parsed is that of the element. -/
theorem elementFault?_of_error {tag source : String} {error : CompileError}
    (failed : (Binding.parseContainer source tag).result = .error error) :
    elementFault? tag source = some error := by
  rw [Binding.result_parseContainer] at failed
  rw [elementFault?]
  cases read : Binding.entriesOf source with
  | error first =>
    rw [read] at failed
    cases failed
    rfl
  | ok entries =>
    rw [read] at failed
    simp only at failed ⊢
    cases conflict : Binding.conflict? (Binding.bindingsOf entries) with
    | some first =>
      rw [conflict] at failed
      cases failed
      rfl
    | none =>
      rw [conflict] at failed
      cases failed

/-! ### The error of a forest -/

/-- What is assembled for a plan has the error of the plan. -/
theorem error?_assembled (config : Config) (nodes : List Tree) :
    (assembled config nodes).error? = (assemble config nodes).error? :=
  error?_map merge _

/-- The steps of an element with bindings: those of the element, and then those of what is below it
unless they are part of these. -/
theorem nodeSteps_of_bound {node : Tree} {tag source : String} {attributes : List Attribute}
    (content : node.content = .element tag attributes)
    (bound : attributes.lookup config.bindingAttribute = some source)
    {below : Checked (List Step)} :
    nodeSteps config inner below node =
      elementPlan inner tag source
          (attributes.filter fun entry => entry.1 != config.bindingAttribute) node.children >>=
        fun element =>
          if element.isComplete then pure element.steps
          else both (pure element.steps) (both below (pure [.literal (tagEnd tag)])) := by
  obtain ⟨id, _, children⟩ := node
  cases content
  rw [nodeSteps, bound]
  rfl

/-- The error of an element with bindings: its own, or that of what is below it unless it hides
that. -/
theorem error?_boundSteps {node : Tree} {tag source : String} {attributes : List Attribute}
    (content : node.content = .element tag attributes)
    (bound : attributes.lookup config.bindingAttribute = some source) :
    (nodeSteps config (assembled config) (assemble config node.children) node).error? =
      (elementFault? tag source).or
        (if hidesChildren config node then none else (assemble config node.children).error?) := by
  let others := attributes.filter fun entry => entry.1 != config.bindingAttribute
  rw [nodeSteps_of_bound content bound]
  cases parsed : (Binding.parseContainer source tag).result with
  | error error =>
    have failed : (elementPlan (assembled config) tag source others node.children).result =
        .error error := by
      rw [elementPlan_eq, bind_error _ parsed]
    rw [error?_bind_of_error failed, elementFault?_of_error parsed]
    rfl
  | ok bindings =>
    have hides := hidesChildren_eq content bound parsed
    have checked : (elementPlan (assembled config) tag source others node.children).error? = _ :=
      error?_elementPlan parsed
    have rest : ∀ element,
        (elementPlan (assembled config) tag source others node.children).result = .ok element →
        (if element.isComplete then pure element.steps
          else both (pure element.steps) (both (assemble config node.children)
            (pure [.literal (tagEnd tag)]))).error? =
        if isVoid tag || !leavesContent bindings then none
          else (assemble config node.children).error? := by
      intro element made
      rw [isComplete_of_elementPlan made parsed]
      cases isVoid tag || !leavesContent bindings <;> simp
    rw [error?_bind_const rest, checked, error?_assembled, hides, Option.or_assoc]
    congr 1
    -- the children are compiled by the element or by the walk, unless they are hidden
    unfold plansContent leavesContent
    cases isVoid tag <;> cases bindings.any fun binding => binding.kind.hasPlan <;>
      cases bindings.any fun binding => binding.kind.isValue <;> simp

/-- **The error of a node that is no start marker**: its own, or that of what is below it unless it
hides that. -/
theorem error?_nodeSteps {node : Tree}
    (word : ∀ binding, directive? config node ≠ some (.opening binding))
    (leaf : node.content.isElement = false → node.children = []) :
    (nodeSteps config (assembled config) (assemble config node.children) node).error? =
      (fault? config node).or
        (if hidesChildren config node then none else (assemble config node.children).error?) := by
  have bare : node.content.isElement = false → (assemble config node.children).error? = none := by
    intro plain
    rw [leaf plain, assemble_nil]
    rfl
  cases content : node.content with
  | element tag attributes =>
    cases bound : attributes.lookup config.bindingAttribute with
    | some source =>
      rw [error?_boundSteps content bound, fault?, content]
      simp only [bound, Option.bind_some]
    | none =>
      have free : fault? config node = none := by
        rw [fault?, content]
        simp only [bound, Option.bind_none]
      have hides : hidesChildren config node = isVoid tag := by
        unfold hidesChildren
        simp [content, bound]
      obtain ⟨id, _, children⟩ := node
      cases content
      rw [free, hides, nodeSteps, bound]
      cases isVoid tag with
      | true => rfl
      | false => simp
  | comment text =>
    have free : fault? config node = none := by
      rw [fault?, content]
      simp only
      split
      · rename_i source said
        have opening : directive? config node = some (.opening ⟨.forEach, source⟩) := by
          rw [directive?, content]
          exact said
        exact absurd opening (word _)
      · rfl
    rw [content] at bare
    rw [free, bare rfl, ite_self]
    obtain ⟨id, _, children⟩ := node
    cases content
    rw [nodeSteps]
    split <;> rfl
  | _ =>
    rw [content] at bare
    rw [fault?, content, bare rfl, ite_self]
    obtain ⟨id, _, children⟩ := node
    cases content
    rfl

/-- What a marker says is said by its comment. -/
theorem exists_comment_of_directive {node : Tree} {word : Binding.Directive}
    (said : directive? config node = some word) :
    ∃ text, node.content = .comment text ∧ Binding.parseDirective text config = some word := by
  unfold directive? at said
  cases content : node.content with
  | comment text =>
    rw [content] at said
    exact ⟨text, rfl, said⟩
  | _ =>
    rw [content] at said
    cases said

/-- The error of a start marker is that of its iteration. -/
theorem fault?_of_opening {node : Tree} {binding : Binding}
    (opening : directive? config node = some (.opening binding)) :
    fault? config node =
      if binding.kind = .forEach then iterationFault? binding.source else none := by
  obtain ⟨text, content, said⟩ := exists_comment_of_directive opening
  rw [fault?, content]
  simp only [said]
  obtain ⟨kind, source⟩ := binding
  cases kind with
  | forEach => exact (if_pos rfl).symm
  | _ => rfl

/-- An end marker has no error. -/
theorem fault?_of_closing {node : Tree} (closing : directive? config node = some .closing) :
    fault? config node = none := by
  obtain ⟨text, content, said⟩ := exists_comment_of_directive closing
  rw [fault?, content]
  simp only [said]

/-- **The error of a forest is the first one of its visible nodes**, in document order. -/
theorem error?_assemble {loose : Bool} {nodes dangling : List Tree} {blocks : List Block}
    (pairs : Pairs config loose nodes blocks dangling) (distinct : Distinct nodes)
    (leafy : Leafy nodes) :
    (assemble config nodes).error? = (visible config blocks nodes).findSome? (fault? config) := by
  have split : ∀ (shown : Bool) (below : List Tree),
      (if shown then [] else below).findSome? (fault? config) =
        if shown then none else below.findSome? (fault? config) := by
    intro shown below
    cases shown <;> rfl
  have front : ∀ (first : Tree) (rest : List Tree),
      (first :: rest).findSome? (fault? config) =
        (fault? config first).or (rest.findSome? (fault? config)) := by
    intro first rest
    rw [List.findSome?_cons]
    cases fault? config first <;> rfl
  induction pairs with
  | nil => simp
  | @other _ first rest below _ _ _ plain children later under after =>
    obtain ⟨_, _, distinctBelow, distinctLater, _⟩ := distinct.cons
    have word := fun binding => not_opening_of_plain binding plain
    rw [assemble_cons word, error?_both, error?_nodeSteps word leafy.head,
      visible_other children later distinct, front, List.findSome?_append,
      split, under distinctBelow leafy.cons.1, after distinctLater leafy.cons.2, Option.or_assoc]
  | @dangling node _ _ _ closing leaf later after =>
    have word := fun binding => not_opening_of_closing binding closing
    rw [assemble_cons word, error?_both, error?_nodeSteps word fun _ => leaf,
      visible_dangling closing leaf later distinct, front, leaf, assemble_nil, error?_pure,
      ite_self, Option.or_none, after distinct.cons.2.2.2.1 leafy.cons.2]
  | @block _ binding start finish body rest _ _ _ opening leaf closing last within later inside
      after =>
    obtain ⟨_, distinctBody, distinctRest, _⟩ := distinct_block distinct leaf last
    obtain ⟨leafyBody, leafyFinish⟩ := leafy.cons.2.append
    have planned : (if binding.kind.hasPlan then (assembled config body).error? else none) =
        if binding.kind.isValue then none else (assemble config body).error? := by
      rw [error?_assembled, hasPlan_of_opening opening]
      cases binding.kind.isValue <;> rfl
    rw [assemble_block opening (within.balanced rfl) closing, error?_both, error?_map,
      error?_scopeStep, visible_block opening leaf closing last within later distinct, front,
      List.findSome?_append, split, front, fault?_of_closing closing, Option.none_or,
      fault?_of_opening opening, planned, inside distinctBody leafyBody,
      after distinctRest leafyFinish.cons.2, Option.or_assoc]

end Template

end DataBind
