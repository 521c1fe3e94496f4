/-
**Attributes that a start tag has twice.**

The attributes of an element with bindings come from several sources: the entries of an attribute
binding, the class attribute of a class binding, the style attribute of a style binding, and the
literal attributes that are left. A literal attribute gives way to a bound one of exactly its name.
Names that differ in case are one name to a reader of markup, and bound attributes never give way to
each other, so some elements get an attribute twice.

* `Step.attribute?`, `writtenAttributes`: the attributes that a start tag has in a context;
* `markup_startTag`: a start tag is written with these attributes;
* `names_written_sublist`, `names_written_of_affirming`: their names are among those that the
  bindings make and those that are left, and all of these if every value is true;
* `singular_iff`: when no start tag of an element has an attribute twice, whatever the data;
* `repeated_title`: an element that gets one twice.
-/

import DataBind.Proofs.Template.StartTag

namespace DataBind.Template

open Markup Markup.Tree Block

variable {runtime : Runtime} {context : Context} {steps : List Step} {left : List Attribute}

/-! ### The attributes of a start tag -/

/-- The attribute that a step writes in a context. A suppressed value omits it. -/
def Step.attribute? (runtime : Runtime) (context : Context) : Step → Option Attribute
  | .attribute name expression =>
    let value := (runtime.evaluate context expression).1
    if isSuppressed value then none else some (name, value.toText)
  | .classes fixed dynamic =>
    let names := (dynamicClasses runtime context dynamic).1
    some ("class", " ".intercalate (Text.distinct (fixed ++ names)))
  | .styles fixed dynamic =>
    let literal := fixed.map fun (property, value) => styleText property value
    let declarations := (dynamicDeclarations runtime context dynamic).1
    some ("style", " ".intercalate (literal ++ declarations))
  | _ => none

/-- The attributes of a start tag: those that its steps write, and then those that are left. -/
def writtenAttributes (runtime : Runtime) (context : Context) (steps : List Step)
    (left : List Attribute) : List Attribute :=
  steps.filterMap (Step.attribute? runtime context) ++ left

theorem attributesText_append (first second : List Attribute) :
    attributesText (first ++ second) = attributesText first ++ attributesText second := by
  induction first with
  | nil => exact String.empty_append.symm
  | cons entry rest ih =>
    rw [List.cons_append, attributesText_cons, attributesText_cons, ih, String.append_assoc]

/-- A step of a start tag writes its attribute. -/
theorem markup_renderStep {step : Step} (named : step.attributeName?.isSome = true) :
    (renderStep runtime context step).markup =
      attributesText (step.attribute? runtime context).toList := by
  have single : ∀ name value, attributesText [(name, value)] = attributeText name value :=
    fun name value => (attributesText_cons name value []).trans String.append_empty
  cases step with
  | «attribute» name value =>
    rw [renderStep, Runtime.withValue, Step.attribute?]
    show "" ++ (attributeOutput name (runtime.evaluate context value).1).markup = _
    rw [String.empty_append, markup_attributeOutput]
    by_cases omitted : isSuppressed (runtime.evaluate context value).1 = true
    · rw [if_pos omitted, if_pos omitted]
      rfl
    · rw [if_neg omitted, if_neg omitted]
      exact (single _ _).symm
  | classes fixed dynamic => exact (single _ _).symm
  | styles fixed dynamic => exact (single _ _).symm
  | _ => cases named

/-- **A start tag is written with its attributes.** -/
theorem markup_startTag (named : ∀ step ∈ steps, step.attributeName?.isSome = true) (tag : String) :
    (renderAll runtime context (startSteps tag steps left)).markup =
      tagStart tag (writtenAttributes runtime context steps left) ++
        (if isVoid tag then " />" else ">") := by
  have dynamic : (renderAll runtime context steps).markup =
      attributesText (steps.filterMap (Step.attribute? runtime context)) := by
    induction steps with
    | nil => rw [renderAll]; rfl
    | cons step rest ih =>
      obtain ⟨here, later⟩ := List.forall_mem_cons.mp named
      rw [renderAll, List.filterMap_cons]
      show (renderStep runtime context step).markup ++ (renderAll runtime context rest).markup = _
      rw [ih later, markup_renderStep here]
      rcases step.attribute? runtime context with _ | entry
      · exact String.empty_append
      · exact (attributesText_append [entry] _).symm
  rw [renderAll_startTag, writtenAttributes, tagStart, attributesText_append, ← dynamic]
  simp only [Output.append_def, Output.write, String.append_assoc]

/-! ### Their names -/

/-- The attribute that a step writes has the name of the step. -/
theorem attributeName?_of_attribute? {step : Step} {entry : Attribute}
    (writes : step.attribute? runtime context = some entry) :
    step.attributeName? = some entry.1 := by
  cases step with
  | «attribute» name value =>
    rw [Step.attribute?] at writes
    by_cases omitted : isSuppressed (runtime.evaluate context value).1 = true
    · rw [if_pos omitted] at writes
      cases writes
    · rw [if_neg omitted] at writes
      cases writes
      rfl
  | classes fixed dynamic =>
    cases writes
    rfl
  | styles fixed dynamic =>
    cases writes
    rfl
  | _ => cases writes

variable {names : List String}

/-- **The names in a start tag** are among those of its steps and those that are left. -/
theorem names_written_sublist (named : steps.map Step.attributeName? = names.map some) :
    ((writtenAttributes runtime context steps left).map Prod.fst).Sublist
      (names ++ left.map Prod.fst) := by
  rw [writtenAttributes, List.map_append]
  refine List.Sublist.append ?_ (List.Sublist.refl _)
  induction steps generalizing names with
  | nil => exact List.nil_sublist _
  | cons step rest ih =>
    obtain ⟨name, others, rfl, own, later⟩ := List.map_eq_cons_iff.mp named.symm
    rw [List.filterMap_cons]
    rcases writes : step.attribute? runtime context with _ | entry
    · exact (ih later.symm).cons name
    · have same := attributeName?_of_attribute? writes
      rw [← own, Option.some.injEq] at same
      rw [List.map_cons, same]
      exact (ih later.symm).cons_cons _

/-- Where every value is true, no attribute is omitted. -/
def affirming (config : Config) : Runtime :=
  ⟨fun _ _ => .ok (.bool true), config⟩

theorem names_written_of_affirming (config : Config) (context : Context)
    (named : steps.map Step.attributeName? = names.map some) :
    (writtenAttributes (affirming config) context steps left).map Prod.fst =
      names ++ left.map Prod.fst := by
  rw [writtenAttributes, List.map_append]
  refine congrArg (· ++ _) ?_
  induction steps generalizing names with
  | nil =>
    rw [List.map_eq_nil_iff.mp named.symm]
    rfl
  | cons step rest ih =>
    obtain ⟨name, others, rfl, own, later⟩ := List.map_eq_cons_iff.mp named.symm
    have written : ∃ value, step.attribute? (affirming config) context = some (name, value) := by
      cases step with
      | «attribute» key value =>
        cases own
        exact ⟨_, rfl⟩
      | classes fixed dynamic =>
        cases own
        exact ⟨_, rfl⟩
      | styles fixed dynamic =>
        cases own
        exact ⟨_, rfl⟩
      | _ => cases own
    obtain ⟨value, written⟩ := written
    rw [List.filterMap_cons, written, List.map_cons, ih later.symm]

/-! ### Names that are read as one -/

/-- A name as a reader of markup takes it: in lower case. -/
def readName (name : String) : List Char :=
  Text.asciiLower name.toList

/-- Whether names are read as different ones. -/
def Singular (names : List String) : Prop :=
  (names.map readName).Nodup

/-- **Bound names and literal ones are read as different ones**, of which the literal ones are left
that are not bound, just if the bound names are, and no bound name is read as a literal one that it
is not. -/
theorem singular_append_iff {bound literal : List String} (once : Singular literal) :
    Singular (bound ++ literal.filter fun name => name ∉ bound) ↔
      Singular bound ∧
        ∀ name ∈ bound, ∀ other ∈ literal, readName other = readName name → other = name := by
  have kept : Singular (literal.filter fun name => name ∉ bound) :=
    once.sublist (List.filter_sublist.map readName)
  rw [Singular, List.map_append, List.nodup_append]
  constructor
  · rintro ⟨single, _, apart⟩
    refine ⟨single, fun name member other also same => ?_⟩
    by_cases taken : other ∈ bound
    · exact List.inj_on_of_nodup_map single taken member same
    · have stays : other ∈ literal.filter fun name => name ∉ bound :=
        List.mem_filter.mpr ⟨also, decide_eq_true taken⟩
      exact absurd same.symm
        (apart _ (List.mem_map_of_mem member) _ (List.mem_map_of_mem stays))
  · rintro ⟨single, only⟩
    refine ⟨single, kept, fun text first other second same => ?_⟩
    obtain ⟨name, member, rfl⟩ := List.mem_map.mp first
    obtain ⟨key, stays, rfl⟩ := List.mem_map.mp second
    obtain ⟨also, free⟩ := List.mem_filter.mp stays
    exact of_decide_eq_true free (only name member key also same.symm ▸ member)

/-! ### Elements -/

section Elements

variable {config : Config} {index : Block.Index} {nodes : List Tree} {plan : Plan}
  {state : Compiling} {parent : Option Tree} {node : Tree} {tag source : String}
  {attributes : List Attribute}

/-- The names of the attributes that survive are those of other attributes that are not bound. -/
theorem names_survivors (config : Config) (bindings : List Binding) (attributes : List Attribute) :
    (survivors config bindings attributes).map Prod.fst =
      ((attributes.map Prod.fst).filter fun name => name ≠ config.bindingAttribute).filter
        fun name => name ∉ bindings.flatMap namesOf := by
  rw [survivors, List.filter_filter, List.filter_map]
  congr 2
  funext entry
  rw [Bool.eq_iff_iff, Function.comp, Bool.and_eq_true, decide_eq_true_iff, decide_eq_true_iff,
    decide_eq_true_iff, List.mem_flatMap, and_comm]
  simp only [not_exists, not_and]

/-- **When no start tag of an element has an attribute twice.** Let an element be met while a forest
is compiled, whose literal attributes are read as different ones. Its start tag has the attributes
that its steps write and the literal ones that survive. For all expression languages these are read
as different ones just if the attributes that its bindings make are, and each of these takes the
place of any literal attribute that is read as the same. -/
theorem singular_iff (compiled : (compile config index nodes).result = .ok plan)
    (met : Meets config index nodes state parent node)
    (content : node.content = .element tag attributes)
    (bound : attributes.lookup config.bindingAttribute = some source)
    (once : Singular (attributes.map Prod.fst)) :
    ∃ bindings steps inside, (Binding.parseContainer source tag).result = .ok bindings ∧
      Emits config index nodes state parent node (guardedBy bindings
        (startSteps tag steps (survivors config bindings attributes) ++ inside)) ∧
      (∀ runtime context,
        (renderAll runtime context (startSteps tag steps
          (survivors config bindings attributes))).markup =
        tagStart tag (writtenAttributes runtime context steps
          (survivors config bindings attributes)) ++ (if isVoid tag then " />" else ">")) ∧
      ∀ context, (∀ evaluator, Singular ((writtenAttributes ⟨evaluator, config⟩ context steps
          (survivors config bindings attributes)).map Prod.fst)) ↔
        Singular (bindings.flatMap namesOf) ∧
          ∀ name ∈ bindings.flatMap namesOf, ∀ other ∈ attributes.map Prod.fst,
            other ≠ config.bindingAttribute → readName other = readName name → other = name := by
  obtain ⟨bindings, steps, inside, parsed, made, emits⟩ :=
    emits_of_element compiled met content bound once.of_map
  have names := (allBindingSteps_left (nodup_filter once.of_map _) made).2
  refine ⟨bindings, steps, inside, parsed, emits,
    fun runtime context => markup_startTag (isSome_of_allBindingSteps made) tag, fun context => ?_⟩
  have others : Singular ((attributes.map Prod.fst).filter fun name =>
      name ≠ config.bindingAttribute) :=
    once.sublist (List.filter_sublist.map readName)
  have split := @singular_append_iff (bindings.flatMap namesOf) _ others
  rw [← names_survivors] at split
  have bounds : (∀ name ∈ bindings.flatMap namesOf, ∀ other ∈ (attributes.map Prod.fst).filter
      (fun name => name ≠ config.bindingAttribute), readName other = readName name →
        other = name) ↔
      ∀ name ∈ bindings.flatMap namesOf, ∀ other ∈ attributes.map Prod.fst,
        other ≠ config.bindingAttribute → readName other = readName name → other = name := by
    simp only [List.mem_filter, decide_eq_true_eq, and_imp]
  rw [← bounds, ← split]
  constructor
  · intro always
    rw [← names_written_of_affirming config context names]
    exact always (affirming config).evaluator
  · intro single evaluator
    exact single.sublist ((names_written_sublist names).map readName)

end Elements

/-- A paragraph with a title in lower case, and with a text and a title in mixed case that are
bound. -/
def titledParagraph : Tree :=
  .node 0 (.element "p" [("title", "a"), ("data-bind", "attr: {Title: t}, text: x")]) []

/-- The paragraph keeps its title beside the bound one, and some expression language shows both. -/
theorem singular_iff_paragraph : ∃ steps inside,
    Emits {} .empty [titledParagraph] .start none titledParagraph
      (startSteps "p" steps [("title", "a")] ++ inside) ∧
    ∀ context, ∃ evaluator, ¬ Singular
      ((writtenAttributes ⟨evaluator, {}⟩ context steps [("title", "a")]).map Prod.fst) := by
  obtain ⟨⟨plan, compiled⟩, met⟩ :
      (∃ plan, (compile {} .empty [titledParagraph]).result = .ok plan) ∧
        Meets {} .empty [titledParagraph] .start none titledParagraph :=
    compiles_and_meets (by decide +kernel) (by decide +kernel)
  obtain ⟨bindings, steps, inside, parsed, emits, _, shown⟩ :=
    singular_iff compiled met rfl rfl (by rw [Singular]; decide)
  have known : (Binding.parseContainer "attr: {Title: t}, text: x" "p").result.toOption =
      some [⟨.attributes, "{Title: t}"⟩, ⟨.text, "x"⟩] := by
    decide +kernel
  rw [parsed] at known
  cases known
  have kept : survivors {} [⟨.attributes, "{Title: t}"⟩, ⟨.text, "x"⟩]
      [("title", "a"), ("data-bind", "attr: {Title: t}, text: x")] = [("title", "a")] := by
    decide +kernel
  have bound : [Binding.mk .attributes "{Title: t}", ⟨.text, "x"⟩].flatMap namesOf = ["Title"] := by
    decide +kernel
  rw [kept] at emits shown
  refine ⟨steps, inside, emits, fun context => ?_⟩
  by_contra single
  have taken := ((shown context).mp (not_exists_not.mp single)).2
  rw [bound] at taken
  have equal : "title" = "Title" := taken "Title" List.mem_cons_self "title" List.mem_cons_self
    (by decide) (by decide)
  exact absurd equal (by decide)

/-- The markup of such a paragraph, without a bound text. -/
def titledMarkup : String :=
  "<p title=\"a\" data-bind=\"attr: {Title: t}\"></p>"

/-- **An attribute that is written twice**: the title of a paragraph, literally and bound. -/
theorem repeated_title : ∃ template,
    (ofMarkup (affirming {}).evaluator {} titledMarkup).result = .ok template ∧
      (template.render .null).markup = "<p Title=\"true\" title=\"a\"></p>" ∧
      ¬ Singular ["Title", "title"] := by
  have written : (match (ofMarkup (affirming {}).evaluator {} titledMarkup).result with
      | .ok template =>
        decide ((template.render .null).markup = "<p Title=\"true\" title=\"a\"></p>")
      | .error _ => false) = true := by
    simp only [ofMarkup, ofFragment, ofNodes, ofTrees, planOf, compile_eq]
    decide +kernel
  split at written
  · rename_i template compiled
    exact ⟨template, compiled, of_decide_eq_true written, by rw [Singular]; decide⟩
  · cases written

end DataBind.Template
