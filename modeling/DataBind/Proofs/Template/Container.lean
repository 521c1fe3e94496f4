/-
**A binding in an attribute and the same binding in comments.**

An element with one binding can be written without the attribute: marker comments with the binding
stand around its children, or around the element itself if the binding is a condition. Both forms
are compiled to the same error or to templates that write the same.

* `assemble_map`: forests whose nodes are compiled alike have the same steps;
* `assemble_shapeAll`: what is compiled does not depend on how the nodes are numbered;
* `attributeForm`, `commentForm`: the two forms;
* `assemble_attributeForm`, `assemble_commentForm`: their steps, made from the same plan;
* `sameOutcome_of_forms`: both forms have the same outcome.
-/

import DataBind.Proofs.Binding.Entry
import DataBind.Proofs.Template.Interpretation

namespace DataBind

/-! ### Results with warnings -/

namespace Checked

variable {α β γ δ : Type}

/-- The same outcome: the same warnings, and then the same error or related values. -/
def SameOutcome (related : α → β → Prop) (first : Checked α) (second : Checked β) : Prop :=
  first.warnings = second.warnings ∧
    match first.result, second.result with
    | .ok value, .ok other => related value other
    | .error error, .error other => error = other
    | _, _ => False

theorem pure_bind (value : α) (next : α → Checked β) : pure value >>= next = next value := rfl

theorem lift_ok (value : α) : lift (.ok value) = pure value := rfl

theorem map_map (f : α → β) (g : β → γ) (result : Checked α) :
    g <$> f <$> result = (fun value => g (f value)) <$> result := by
  obtain ⟨warnings, _ | value⟩ := result
  · rfl
  · rw [map_ok, map_ok, map_ok]

@[simp] theorem both_nil (result : Checked (List α)) : both result (pure []) = result := by
  obtain ⟨warnings, _ | found⟩ := result
  · rfl
  · rw [pure_eq, both_ok, List.append_nil]
    show (⟨warnings, .ok (found ++ [])⟩ : Checked (List α)) = _
    rw [List.append_nil]

@[simp] theorem nil_both (result : Checked (List α)) : both (pure []) result = result := by
  obtain ⟨warnings, _ | found⟩ := result
  · rfl
  · rw [pure_eq, both_ok]
    rfl

/-- Findings of a result, between others that are certain. -/
theorem both_map_both (front back : List β) (f : α → List β) (result : Checked α) :
    both (pure front) (both (f <$> result) (pure back)) =
      (fun value => front ++ (f value ++ back)) <$> result := by
  obtain ⟨warnings, _ | value⟩ := result
  · rfl
  · rw [map_ok, map_ok, pure_eq, pure_eq, both_ok, both_ok, List.append_nil, List.nil_append]
    rfl

end Checked

namespace Template

open Markup Markup.Tree Block Checked

variable {config : Config}

/-! ### Forests that are compiled alike -/

/-- What is required of a node and its image to be compiled alike, where the children of the image
are the images of the children: they say the same about blocks, and have the same steps if the
plans of their children are the same. -/
structure Agrees (config other : Config) (g : Tree → Tree) (node : Tree) : Prop where
  children : (g node).children = node.children.map g
  directive : directive? other (g node) = directive? config node
  steps : ∀ inner also below, inner (g node).children = also node.children →
    nodeSteps other inner below (g node) = nodeSteps config also below node

section Images

variable {other : Config} {g : Tree → Tree}

/-- The end of a block is found in the images of the nodes as in the nodes. -/
theorem splitBlock?_map {nodes : List Tree}
    (said : ∀ node ∈ nodes, directive? other (g node) = directive? config node) (depth : Nat) :
    splitBlock? other depth (nodes.map g) =
      (splitBlock? config depth nodes).map fun (body, finish, after) =>
        (body.map g, g finish, after.map g) := by
  induction nodes generalizing depth with
  | nil => rw [List.map_nil, splitBlock?, splitBlock?, Option.map_none]
  | cons node rest ih =>
    obtain ⟨here, later⟩ := List.forall_mem_cons.mp said
    rw [List.map_cons, splitBlock?, splitBlock?, depthAfter, here, ← depthAfter]
    cases depthAfter config depth node with
    | none => rfl
    | some next =>
      simp only [ih later, Option.map_map]
      rfl

/-- **Forests whose nodes are compiled alike have the same steps.** -/
theorem assemble_map {nodes : List Tree}
    (agrees : ∀ node ∈ subtreesAll nodes, Agrees config other g node) :
    assemble other (nodes.map g) = assemble config nodes := by
  induction weight : weightAll nodes using Nat.strongRecOn generalizing nodes
  rename_i bound ih
  cases nodes with
  | nil => rw [List.map_nil, assemble_nil, assemble_nil]
  | cons first rest =>
    rw [weightAll, weight_eq] at weight
    rw [subtreesAll_cons, List.forall_mem_cons, List.forall_mem_append] at agrees
    obtain ⟨⟨children, said, steps⟩, inside, afterwards⟩ := agrees
    have later := ih (weightAll rest) (by omega) afterwards rfl
    have same : ∀ node ∈ rest, directive? other (g node) = directive? config node :=
      fun node member => (afterwards node (mem_subtreesAll_of_mem member)).directive
    rw [List.map_cons]
    by_cases opens : ∃ binding, directive? config first = some (.opening binding)
    · obtain ⟨binding, opening⟩ := opens
      rw [opening] at said
      cases found : splitBlock? config 0 rest with
      | none =>
        have missing : splitBlock? other 0 (rest.map g) = none := by
          rw [splitBlock?_map same, found, Option.map_none]
        rw [assemble_unclosed said missing, assemble_unclosed opening found, later]
      | some parts =>
        obtain ⟨body, finish, after⟩ := parts
        have moved : splitBlock? other 0 (rest.map g) =
            some (body.map g, g finish, after.map g) := by
          rw [splitBlock?_map same, found, Option.map_some]
        obtain ⟨rfl, closing, balanced⟩ := splitBlock?_eq_some found
        obtain ⟨together, ends, level⟩ := splitBlock?_eq_some moved
        rw [weightAll_append, weightAll] at weight
        rw [subtreesAll_append, subtreesAll_cons, List.forall_mem_append, List.forall_mem_cons,
          List.forall_mem_append] at afterwards
        obtain ⟨within, _, _, behind⟩ := afterwards
        have plan : assembled other (body.map g) = assembled config body :=
          congrArg (merge <$> ·) (ih (weightAll body) (by omega) within rfl)
        rw [together, assemble_block said level ends, assemble_block opening balanced closing,
          scopeStep_congr plan, ih (weightAll after) (by omega) behind rfl]
    · have word : ∀ binding, directive? config first ≠ some (.opening binding) :=
        fun binding opening => opens ⟨binding, opening⟩
      have below : assemble other (g first).children = assemble config first.children := by
        rw [children]
        exact ih (weightAll first.children) (by omega) inside rfl
      have plan : assembled other (g first).children = assembled config first.children :=
        congrArg (merge <$> ·) below
      rw [assemble_cons (said ▸ word), assemble_cons word, later, below, steps _ _ _ plan]

end Images

/-- **What is compiled does not depend on how the nodes are numbered.** -/
theorem assemble_shapeAll (nodes : List Tree) :
    assemble config (shapeAll nodes) = assemble config nodes := by
  rw [shapeAll_eq_map]
  refine assemble_map fun node _ => ⟨?_, directive?_of_content (content_shape node), ?_⟩
  · rw [children_shape, shapeAll_eq_map]
  · exact fun inner also below same => nodeSteps_congr (content_shape node) same below

/-- Forests of one shape have the same steps. -/
theorem assemble_of_shapeAll_eq {first second : List Tree}
    (same : shapeAll first = shapeAll second) :
    assemble config first = assemble config second := by
  rw [← assemble_shapeAll first, same, assemble_shapeAll]

/-! ### The two forms -/

/-- Whether a binding is a condition, and so holds for the whole of its element. -/
def isCondition (kind : Binding.Kind) : Bool :=
  kind == .showIf || kind == .showIfNot

/-- A forest between marker comments. -/
def enclosed (opening closing : String) (body : List Tree) : List Tree :=
  .node 0 (.comment opening) [] :: (body ++ [.node 0 (.comment closing) []])

/-- An element with a binding in its binding attribute, which stands among others. -/
def attributeForm (config : Config) (tag : String) (before after : List Attribute)
    (binding : Binding) (children : List Tree) : List Tree :=
  let entry := binding.kind.name ++ ": " ++ binding.source
  [.node 0 (.element tag (before ++ (config.bindingAttribute, entry) :: after)) children]

/-- An element without a binding attribute, with marker comments around its children, or around
the element if the binding is a condition. -/
def commentForm (tag : String) (before after : List Attribute) (binding : Binding)
    (opening closing : String) (children : List Tree) : List Tree :=
  if isCondition binding.kind then
    enclosed opening closing [.node 0 (.element tag (before ++ after)) children]
  else [.node 0 (.element tag (before ++ after)) (enclosed opening closing children)]

/-- What is required for both forms: an element that can have children, whose markers match and
whose attributes do not bind; a binding that a comment can have; and comments that say so. -/
structure Convertible (config : Config) (tag : String) (attributes : List Attribute)
    (binding : Binding) (opening closing : String) (children : List Tree) : Prop where
  notVoid : isVoid tag = false
  literal : ∀ entry ∈ attributes, entry.1 ≠ config.bindingAttribute
  balanced : ∀ level ∈ levels children, Balanced config level
  containerless : binding.kind.isContainerless = true
  operand : Binding.Operand binding.source
  opens : Text.trimmed opening = "ko " ++ binding.kind.name ++ ": " ++ binding.source
  closes : Text.trimmed closing = "/ko"

/-! ### The steps of the forms -/

section Forms

variable {tag opening closing : String} {before after : List Attribute} {binding : Binding}
  {children : List Tree} {inner : List Tree → Checked Plan}

/-- A start tag without dynamic attributes writes what a literal one does. -/
theorem renderAll_startSteps_nil (runtime : Runtime) (context : Context) (tag : String)
    (attributes : List Attribute) :
    renderAll runtime context (startSteps tag [] attributes) =
      .write (literalTag tag attributes) := by
  have made : allBindingSteps [] attributes = .ok ([], attributes) := rfl
  rw [renderAll_startSteps made, dynamicAttributes]
  simp only [literalTag, tagStart, write_append]

/-- A binding that a comment can have adds nothing to a start tag. -/
theorem allBindingSteps_containerless (containerless : binding.kind.isContainerless = true)
    (attributes : List Attribute) :
    allBindingSteps [binding] attributes = .ok ([], attributes) := by
  obtain ⟨kind, source⟩ := binding
  cases kind with
  | attributes => cases containerless
  | classes => cases containerless
  | styles => cases containerless
  | _ => rfl

/-- The plan of an element with one binding: its start tag and its content, guarded as a whole if
the binding is a condition. -/
theorem elementPlan_single (containerless : binding.kind.isContainerless = true)
    (operand : Binding.Operand binding.source) (notVoid : isVoid tag = false)
    (attributes : List Attribute) :
    elementPlan inner tag (binding.kind.name ++ ": " ++ binding.source) attributes children =
      (fun content =>
        let whole := startSteps tag [] attributes ++ content
        (⟨match binding.condition? with
          | some condition => [.guarded condition whole]
          | none => whole, true⟩ : ElementPlan)) <$>
        contentSteps inner tag [binding] children := by
  have made := allBindingSteps_containerless containerless attributes
  obtain ⟨kind, source⟩ := binding
  have condition : [Binding.mk kind source].findSome? Binding.condition? =
      (Binding.mk kind source).condition? := by
    cases found : (Binding.mk kind source).condition? <;> simp [found]
  have decides : ((Binding.mk kind source).condition?.isNone &&
      !([Binding.mk kind source].any fun binding => binding.kind == .scope) &&
        (contentBinding? [Binding.mk kind source]).isNone) = false := by
    cases kind with
    | attributes => cases containerless
    | classes => cases containerless
    | styles => cases containerless
    | _ => rfl
  rw [elementPlan, Binding.parseContainer_entry kind operand, pure_bind, made, lift_ok, pure_bind]
  simp only [condition, decides, notVoid, Bool.false_eq_true, if_false]
  cases (Binding.mk kind source).condition? with
  | none => rfl
  | some condition => rfl

/-- The content of the element of a condition is the plan of its children. -/
theorem contentSteps_condition (condition : isCondition binding.kind = true) :
    contentSteps inner tag [binding] children =
      (fun plan => plan ++ [.literal (tagEnd tag)]) <$> inner children := by
  obtain ⟨kind, source⟩ := binding
  cases kind with
  | showIf => rfl
  | showIfNot => rfl
  | _ => cases condition

/-- The content of an element whose binding is no condition is the step of the binding. -/
theorem contentSteps_scope (containerless : binding.kind.isContainerless = true)
    (other : isCondition binding.kind = false) :
    contentSteps inner tag [binding] children =
      (fun step => Option.toList step ++ [.literal (tagEnd tag)]) <$>
        scopeStep inner binding children := by
  obtain ⟨kind, source⟩ := binding
  by_cases scope : kind = .scope
  · subst scope
    have replaced : contentBinding? [Binding.mk .scope source] = none := rfl
    have opened : [Binding.mk .scope source].find? (fun binding => binding.kind == .scope) =
        some ⟨.scope, source⟩ := rfl
    rw [contentSteps, innerSteps, replaced, scopeStep]
    simp only [opened]
    obtain ⟨warnings, _ | plan⟩ := inner children
    · rfl
    · simp only [pure_eq, bind_ok, map_ok, List.append_nil]
      rfl
  · have replaced : contentBinding? [Binding.mk kind source] = some ⟨kind, source⟩ := by
      cases kind with
      | showIf => cases other
      | showIfNot => cases other
      | attributes => cases containerless
      | classes => cases containerless
      | styles => cases containerless
      | scope => exact absurd rfl scope
      | _ => rfl
    have opened : [Binding.mk kind source].find? (fun binding => binding.kind == .scope) =
        none := by
      simp [scope]
    rw [contentSteps, innerSteps, replaced]
    simp only [opened]
    obtain ⟨warnings, _ | step⟩ := scopeStep inner ⟨kind, source⟩ children
    · rfl
    · simp only [pure_eq, bind_ok, map_ok, List.append_nil]

/-- An element without a binding attribute stands for its tags and what is between them. -/
theorem assemble_unbound (notVoid : isVoid tag = false) {attributes : List Attribute}
    (literal : ∀ entry ∈ attributes, entry.1 ≠ config.bindingAttribute) (id : NodeId) :
    assemble config [.node id (.element tag attributes) children] =
      (fun inside => .literal (literalTag tag attributes) :: (inside ++ [.literal (tagEnd tag)])) <$>
        assemble config children := by
  have missing : attributes.lookup config.bindingAttribute = none :=
    List.lookup_eq_none_iff.mpr fun entry member =>
      bne_iff_ne.mpr (literal entry member).symm
  have word : ∀ binding, directive? config (.node id (.element tag attributes) children) ≠
      some (.opening binding) := by
    intro binding opening
    cases opening
  have found : (fun inside => inside) <$> assemble config children = assemble config children := by
    cases assemble config children with
    | mk warnings result => cases result with
      | error error => rfl
      | ok steps => rw [map_ok]
  rw [assemble_cons word, assemble_nil, both_nil, nodeSteps, missing]
  simp only [notVoid, Bool.false_eq_true, if_false, Tree.children]
  rw [← found, both_map_both, found]
  rfl

/-- An element with one binding stands for the plan of the element. -/
theorem assemble_attributeForm (notVoid : isVoid tag = false)
    (literal : ∀ entry ∈ before ++ after, entry.1 ≠ config.bindingAttribute)
    (containerless : binding.kind.isContainerless = true)
    (operand : Binding.Operand binding.source) :
    assemble config (attributeForm config tag before after binding children) =
      (fun content =>
        let whole := startSteps tag [] (before ++ after) ++ content
        match binding.condition? with
          | some condition => [.guarded condition whole]
          | none => whole) <$>
        contentSteps (assembled config) tag [binding] children := by
  have word : ∀ other, directive? config (.node 0 (.element tag (before ++
      (config.bindingAttribute, binding.kind.name ++ ": " ++ binding.source) :: after)) children) ≠
        some (.opening other) := by
    intro other opening
    cases opening
  obtain ⟨literalBefore, literalAfter⟩ := List.forall_mem_append.mp literal
  have found : (before ++ (config.bindingAttribute,
      binding.kind.name ++ ": " ++ binding.source) :: after).lookup config.bindingAttribute =
        some (binding.kind.name ++ ": " ++ binding.source) := by
    rw [List.lookup_append, List.lookup_eq_none_iff.mpr fun entry member =>
      bne_iff_ne.mpr (literalBefore entry member).symm, Option.none_or,
      List.lookup_cons_self]
  have others : (before ++ (config.bindingAttribute,
      binding.kind.name ++ ": " ++ binding.source) :: after).filter
        (fun entry => entry.1 != config.bindingAttribute) = before ++ after := by
    rw [List.filter_append, List.filter_cons_of_neg (by simp),
      List.filter_eq_self.mpr fun entry member => bne_iff_ne.mpr (literalBefore entry member),
      List.filter_eq_self.mpr fun entry member => bne_iff_ne.mpr (literalAfter entry member)]
  rw [attributeForm, assemble_cons word, assemble_nil, both_nil, nodeSteps, found]
  simp only [others, elementPlan_single containerless operand notVoid]
  generalize contentSteps (assembled config) tag [binding] children = content
  obtain ⟨warnings, _ | steps⟩ := content
  · rfl
  · simp [bind_ok, map_ok, pure_eq]

/-- A forest between marker comments stands for the step of their binding. -/
theorem assemble_enclosed {body : List Tree} (balanced : Balanced config body)
    (starts : directive? config (.node 0 (.comment opening) []) = some (.opening binding))
    (ends : directive? config (.node 0 (.comment closing) []) = some .closing) :
    assemble config (enclosed opening closing body) =
      Option.toList <$> scopeStep (assembled config) binding body := by
  rw [enclosed, assemble_block starts balanced ends, assemble_nil, both_nil]

/-- The step of a condition is its body, guarded. -/
theorem scopeStep_condition (condition : isCondition binding.kind = true) (body : List Tree) :
    scopeStep inner binding body =
      (fun plan => some (.guarded binding.expression plan)) <$> inner body := by
  obtain ⟨kind, source⟩ := binding
  cases kind with
  | showIf => rfl
  | showIfNot => rfl
  | _ => cases condition

/-- A condition stands for its expression, and other bindings have none. -/
theorem condition?_eq (binding : Binding) :
    binding.condition? = if isCondition binding.kind then some binding.expression else none := by
  obtain ⟨kind, source⟩ := binding
  cases kind <;> rfl

/-- A nested forest is nested between marker comments. -/
theorem nested_enclosed {body : List Tree} (nested : Nested config false body)
    (starts : directive? config (.node 0 (.comment opening) []) = some (.opening binding))
    (ends : directive? config (.node 0 (.comment closing) []) = some .closing) :
    Nested config false (enclosed opening closing body) := by
  obtain ⟨below, level⟩ := nestedFrom_iff.mp nested
  unfold Nested
  rw [enclosed, nestedFrom_opening starts rfl]
  refine nestedFrom_iff.mpr ⟨List.forall_mem_append.mpr ⟨below, ?_⟩, ?_⟩
  · intro tree member
    cases List.mem_singleton.mp member
    rfl
  · rw [show 0 + 1 = 1 + 0 from rfl, balancedFrom_append level, balancedFrom, depthAfter, ends]
    rfl

theorem nested_element (nested : Nested config false children) (id : NodeId)
    (attributes : List Attribute) :
    Nested config false [.node id (.element tag attributes) children] := by
  unfold Nested
  rw [nestedFrom_plain rfl, Bool.and_eq_true]
  exact ⟨nested, rfl⟩

end Forms

/-! ### The same outcome -/

/-- The plan of a fragment that has the shape of a nested forest is the plan of that forest. -/
theorem planOf_of_shape {fragment : Fragment} {form : List Tree} (grown : fragment.Grown)
    (nested : Nested config false form) (same : shapeAll fragment.rootTrees = shapeAll form) :
    planOf config fragment.rootTrees = merge <$> assemble config form := by
  rw [planOf_of_nested grown.distinct grown.leafy (nested.of_shapeAll_eq same), assembled,
    assemble_of_shapeAll_eq same]

/-- Templates that write the same, with every expression language and for all data. -/
def RendersAlike (template other : Template) : Prop :=
  ∀ evaluator data,
    (template.withEvaluator evaluator).render data = (other.withEvaluator evaluator).render data

/-- Forests whose plans are made from the same result, and write the same. -/
theorem sameOutcome_ofTrees {α : Type} {evaluator : Evaluator} {first second : List Tree}
    {f g : α → Plan} {result : Checked α} (one : planOf config first = f <$> result)
    (other : planOf config second = g <$> result)
    (same : ∀ value runtime context,
      renderAll runtime context (f value) = renderAll runtime context (g value)) :
    SameOutcome RendersAlike (ofTrees evaluator config first)
      (ofTrees evaluator config second) := by
  unfold ofTrees
  rw [one, other]
  obtain ⟨warnings, _ | value⟩ := result
  · exact ⟨rfl, rfl⟩
  · refine ⟨rfl, fun evaluator data => ?_⟩
    exact same value ⟨evaluator, config⟩ (Context.root data)

/-- **A binding in an attribute and the same binding in comments have the same outcome**: the same
warnings, and the same error or templates that write the same. -/
theorem sameOutcome_of_forms (evaluator : Evaluator) {config : Config}
    (free : config.noConflict = false) {tag opening closing : String}
    {before after : List Attribute} {binding : Binding} {children : List Tree}
    (convertible :
      Convertible config tag (before ++ after) binding opening closing children)
    {first second : Fragment} (grown : first.Grown) (also : second.Grown)
    (bound : shapeAll first.rootTrees =
      shapeAll (attributeForm config tag before after binding children))
    (marked : shapeAll second.rootTrees =
      shapeAll (commentForm tag before after binding opening closing children)) :
    SameOutcome RendersAlike (ofFragment evaluator config first)
      (ofFragment evaluator config second) := by
  obtain ⟨notVoid, literal, balanced, containerless, operand, opens, closes⟩ := convertible
  have starts : directive? config (.node 0 (.comment opening) []) = some (.opening binding) :=
    Binding.parseDirective_opening free containerless operand opens
  have ends : directive? config (.node 0 (.comment closing) []) = some .closing := by
    have text := congrArg String.toList closes
    rw [Text.trimmed, String.toList_ofList] at text
    exact (Binding.parseDirective_close closing config).mpr (Or.inr ⟨text, free⟩)
  have nested := nested_of_levels balanced
  have planBound : planOf config first.rootTrees =
      merge <$> assemble config (attributeForm config tag before after binding children) :=
    planOf_of_shape grown (nested_element nested _ _) bound
  rw [assemble_attributeForm notVoid literal containerless operand, condition?_eq] at planBound
  by_cases condition : isCondition binding.kind = true
  · -- a condition: the comments stand around the element
    rw [commentForm, if_pos condition] at marked
    have inside : Nested config false [.node 0 (.element tag (before ++ after)) children] :=
      nested_element nested _ _
    have planMarked := planOf_of_shape also (nested_enclosed inside starts ends) marked
    rw [assemble_enclosed (nestedFrom_iff.mp inside).2 starts ends, scopeStep_condition condition,
      assembled, assemble_unbound notVoid literal] at planMarked
    rw [contentSteps_condition condition, assembled] at planBound
    simp only [map_map, if_pos condition] at planBound planMarked
    refine sameOutcome_ofTrees planBound planMarked fun steps runtime context => ?_
    have whole : renderAll runtime context (startSteps tag [] (before ++ after) ++
        (merge steps ++ [.literal (tagEnd tag)])) = renderAll runtime context
          (merge (.literal (literalTag tag (before ++ after)) ::
            (steps ++ [.literal (tagEnd tag)]))) := by
      rw [renderAll_append, renderAll_startSteps_nil, renderAll_append, renderAll_merge,
        renderAll_merge]
      simp only [renderAll, renderStep, renderAll_append]
    rw [renderAll_merge, renderAll_merge]
    show renderAll runtime context [.guarded _ _] = renderAll runtime context [.guarded _ _]
    rw [renderAll_singleton, renderAll_singleton, renderStep, renderStep, whole]
  · -- any other binding: the comments stand around the children
    rw [commentForm, if_neg condition] at marked
    have planMarked := planOf_of_shape also
      (nested_element (nested_enclosed nested starts ends) _ _) marked
    rw [assemble_unbound notVoid literal,
      assemble_enclosed (nestedFrom_iff.mp nested).2 starts ends] at planMarked
    rw [contentSteps_scope containerless (Bool.eq_false_iff.mpr condition)] at planBound
    simp only [map_map, if_neg condition] at planBound planMarked
    refine sameOutcome_ofTrees planBound planMarked fun step runtime context => ?_
    rw [renderAll_merge, renderAll_merge, renderAll_append, renderAll_startSteps_nil, renderAll,
      renderStep]

/-- The entries of a list, repeated by a binding of the list. -/
def boundList : String :=
  "<ul class=\"l\" data-bind=\"foreach: a.concat([1, '\x7d'])\"><li><!-- ko if: b -->c<!-- /ko -->" ++
    "</li></ul>"

/-- The entries of a list, repeated by comments in it. -/
def markedList : String :=
  "<ul class=\"l\"><!--ko foreach: a.concat([1, '\x7d'])--><li><!-- ko if: b -->c<!-- /ko --></li>" ++
    "<!-- /ko --></ul>"

/-- A list that is repeated by its binding, and by comments around its entries. -/
theorem sameOutcome_of_forms_list :
    SameOutcome RendersAlike (ofMarkup CommandLine.evaluator {} boundList)
      (ofMarkup CommandLine.evaluator {} markedList) := by
  let entries := [Markup.Tree.node 0 (.element "li" [])
    [.node 0 (.comment " ko if: b ") [], .node 0 (.text "c") [], .node 0 (.comment " /ko ") []]]
  let binding : Binding := ⟨.forEach, "a.concat([1, '\x7d'])"⟩
  have readBound : ((Markup.parse boundList).toOption.any fun fragment : Fragment => decide (
      shapeAll fragment.rootTrees =
        shapeAll (attributeForm {} "ul" [("class", "l")] [] binding entries))) = true := by
    decide +kernel
  have readMarked : ((Markup.parse markedList).toOption.any fun fragment : Fragment => decide (
      shapeAll fragment.rootTrees = shapeAll (commentForm "ul" [("class", "l")] [] binding
        "ko foreach: a.concat([1, '\x7d'])" " /ko " entries))) = true := by
    decide +kernel
  have convertible : Convertible {} "ul" [("class", "l")] binding
      "ko foreach: a.concat([1, '\x7d'])" " /ko " entries :=
    { notVoid := by decide
      literal := by decide
      balanced := by decide +kernel
      containerless := rfl
      operand := ⟨by decide +kernel, by decide, by decide +kernel⟩
      opens := by decide +kernel
      closes := by decide +kernel }
  obtain ⟨first, parsed, bound⟩ := exists_of_parse_any readBound
  obtain ⟨second, also, marked⟩ := exists_of_parse_any readMarked
  have same := sameOutcome_of_forms CommandLine.evaluator rfl convertible
    (grown_of_parse parsed) (grown_of_parse also) (of_decide_eq_true bound)
    (of_decide_eq_true marked)
  rw [ofMarkup, ofMarkup, parsed, also]
  exact same

end Template

end DataBind
