/-
**The start tag of an element with bindings.**

The bindings of an element are compiled one after another, and each takes the literal attributes
that it replaces off a common list. What is left in the end does not depend on the order: a literal
attribute is left if no binding makes an attribute of its name.

* `namesOf`: the names of the attributes that a binding makes;
* `bindingSteps_left`, `allBindingSteps_left`: the literal attributes that one binding leaves and
  those that all bindings leave, and the names of the attributes that their steps write;
* `mem_styles_of_allBindingSteps`: the step of a style binding;
* `survivors`: the literal attributes that no binding replaces;
* `emits_of_element`: an element that is met adds its start tag and its content to the plan;
* `startTag_of_met`: of an element that is met, all this together.
-/

import DataBind.Proofs.Binding.Container
import DataBind.Proofs.Template.Injection
import DataBind.Proofs.Template.Passes

namespace DataBind.Template

open Markup Markup.Tree Block Checked

variable {config : Config} {attributes left : List Attribute} {steps : List Step}
  {bindings : List Binding}

/-! ### Taking attributes -/

theorem takeAttribute_fst (name : String) (attributes : List Attribute) :
    (takeAttribute name attributes).1 = attributes.lookup name := by
  induction attributes with
  | nil => rfl
  | cons entry rest ih =>
    obtain ⟨key, value⟩ := entry
    rw [takeAttribute, List.lookup_cons]
    by_cases same : key = name
    · rw [if_pos same, same, beq_self_eq_true]
    · rw [if_neg same, beq_false_of_ne (Ne.symm same)]
      exact ih

/-- Of distinct attributes, taking one leaves those of other names. -/
theorem takeAttribute_snd (once : (attributes.map Prod.fst).Nodup) (name : String) :
    (takeAttribute name attributes).2 = attributes.filter fun entry => entry.1 ≠ name := by
  induction attributes with
  | nil => rfl
  | cons entry rest ih =>
    obtain ⟨key, value⟩ := entry
    obtain ⟨fresh, later⟩ := List.nodup_cons.mp once
    rw [takeAttribute, List.filter_cons]
    by_cases same : key = name
    · have others : ∀ entry ∈ rest, decide (entry.1 ≠ name) = true := fun entry member =>
        decide_eq_true fun equal => fresh (List.mem_map.mpr ⟨entry, member, equal.trans same.symm⟩)
      rw [if_pos same, if_neg (by simpa using same), List.filter_eq_self.mpr others]
    · rw [if_neg same, if_pos (decide_eq_true same)]
      exact congrArg _ (ih later)

/-- An attribute is found among those of other names unless its name is one of these. -/
theorem lookup_filter (names : List String) (name : String) (attributes : List Attribute) :
    (attributes.filter fun entry => entry.1 ∉ names).lookup name =
      if name ∈ names then none else attributes.lookup name := by
  induction attributes with
  | nil => exact (ite_self _).symm
  | cons entry rest ih =>
    obtain ⟨key, value⟩ := entry
    rw [List.filter_cons, List.lookup_cons]
    by_cases same : key = name
    · subst same
      rw [beq_self_eq_true]
      by_cases taken : key ∈ names
      · rw [if_neg (by simpa using taken), ih, if_pos taken, if_pos taken]
      · rw [if_pos (decide_eq_true taken), List.lookup_cons_self, if_neg taken]
    · have other : (name == key) = false := beq_false_of_ne (Ne.symm same)
      rw [other]
      by_cases taken : key ∈ names
      · rw [if_neg (by simpa using taken), ih]
      · rw [if_pos (decide_eq_true taken), List.lookup_cons, other]
        exact ih

/-- Filtering by one condition and then by another is filtering by both. -/
theorem filter_twice {first second both : Attribute → Prop} [DecidablePred first]
    [DecidablePred second] [DecidablePred both]
    (same : ∀ entry, both entry ↔ first entry ∧ second entry) (attributes : List Attribute) :
    ((attributes.filter fun entry => first entry).filter fun entry => second entry) =
      attributes.filter fun entry => both entry := by
  rw [List.filter_filter]
  refine List.filter_congr fun entry _ => ?_
  rw [Bool.eq_iff_iff, Bool.and_eq_true, decide_eq_true_iff, decide_eq_true_iff,
    decide_eq_true_iff, same, and_comm]

theorem nodup_filter (once : (attributes.map Prod.fst).Nodup) (keeps : Attribute → Bool) :
    ((attributes.filter keeps).map Prod.fst).Nodup :=
  once.sublist (List.filter_sublist.map Prod.fst)

/-- Taking attributes one by one leaves those of other names. -/
theorem foldl_takeAttribute (once : (attributes.map Prod.fst).Nodup)
    (entries : List (String × String)) :
    entries.foldl (fun left (name, _) => (takeAttribute name left).2) attributes =
      attributes.filter fun entry => entry.1 ∉ entries.map Prod.fst := by
  induction entries generalizing attributes with
  | nil => exact (List.filter_eq_self.mpr fun _ _ => by simp).symm
  | cons first rest ih =>
    show rest.foldl _ (takeAttribute first.1 attributes).2 = _
    rw [takeAttribute_snd once, ih (nodup_filter once _)]
    refine filter_twice (fun entry => ?_) attributes
    rw [List.map_cons, List.mem_cons, not_or]

/-! ### The attributes that bindings make -/

/-- The keys of an object literal. -/
def keysOf (source : String) : List String :=
  match Binding.entriesOf source with
  | .ok entries => entries.map Prod.fst
  | .error _ => []

/-- The names of the attributes that a binding makes, in order. -/
def namesOf (binding : Binding) : List String :=
  match binding.kind with
  | .classes => ["class"]
  | .styles => ["style"]
  | .attributes => keysOf binding.source
  | _ => []

/-- The name of the attribute that a step writes. -/
def Step.attributeName? : Step → Option String
  | .attribute name _ => some name
  | .classes _ _ => some "class"
  | .styles _ _ => some "style"
  | _ => none

/-- **The steps of one binding** write the attributes that it makes. -/
theorem names_of_bindingSteps {binding : Binding}
    (made : bindingSteps binding attributes = .ok (steps, left)) :
    steps.map Step.attributeName? = (namesOf binding).map some := by
  obtain ⟨kind, source⟩ := binding
  rcases bindingSteps_cases made with ⟨step, rfl, rfl, stepped, rfl⟩ |
    ⟨step, rfl, rfl, stepped, rfl⟩ | ⟨entries, rfl, parsed, same⟩ | ⟨other, rfl, rfl⟩
  · obtain ⟨fixed, dynamic, rfl⟩ := exists_of_classStep stepped
    rfl
  · obtain ⟨fixed, dynamic, rfl⟩ := exists_of_styleStep stepped
    rfl
  · have keys : namesOf ⟨.attributes, source⟩ = entries.map Prod.fst := by
      simp only [namesOf, keysOf, parsed]
    obtain ⟨rfl, rfl⟩ := Prod.mk.inj same
    rw [keys, List.map_map, List.map_map]
    rfl
  · obtain ⟨noClass, noStyle, noAttributes⟩ := other
    cases kind <;> first | rfl | contradiction

theorem names_of_allBindingSteps (made : allBindingSteps bindings attributes = .ok (steps, left)) :
    steps.map Step.attributeName? = (bindings.flatMap namesOf).map some := by
  induction bindings generalizing attributes steps with
  | nil =>
    cases made
    rfl
  | cons binding rest ih =>
    obtain ⟨own, remaining, more, first, others, rfl⟩ := allBindingSteps_cons made
    rw [List.map_append, names_of_bindingSteps first, ih others, List.flatMap_cons,
      List.map_append]

/-- So each of them writes an attribute. -/
theorem isSome_of_allBindingSteps (made : allBindingSteps bindings attributes = .ok (steps, left)) :
    ∀ step ∈ steps, step.attributeName?.isSome = true := by
  intro step member
  have listed := List.mem_map_of_mem (f := Step.attributeName?) member
  rw [names_of_allBindingSteps made] at listed
  obtain ⟨name, _, same⟩ := List.mem_map.mp listed
  rw [← same, Option.isSome_some]

/-- **What one binding does to the literal attributes**: it leaves those of whose names it makes
none, and its steps write the attributes that it makes. -/
theorem bindingSteps_left {binding : Binding} (once : (attributes.map Prod.fst).Nodup)
    (made : bindingSteps binding attributes = .ok (steps, left)) :
    left = (attributes.filter fun entry => entry.1 ∉ namesOf binding) ∧
      steps.map Step.attributeName? = (namesOf binding).map some := by
  refine ⟨?_, names_of_bindingSteps made⟩
  obtain ⟨kind, source⟩ := binding
  have single : ∀ name, (takeAttribute name attributes).2 =
      attributes.filter fun entry => entry.1 ∉ [name] := fun name => by
    rw [takeAttribute_snd once]
    simp only [List.mem_singleton]
  rcases bindingSteps_cases made with ⟨step, rfl, rfl, stepped, rfl⟩ |
    ⟨step, rfl, rfl, stepped, rfl⟩ | ⟨entries, rfl, parsed, same⟩ | ⟨other, rfl, rfl⟩
  · exact single "class"
  · exact single "style"
  · have keys : namesOf ⟨.attributes, source⟩ = entries.map Prod.fst := by
      simp only [namesOf, keysOf, parsed]
    obtain ⟨rfl, rfl⟩ := Prod.mk.inj same
    rw [keys, foldl_takeAttribute once]
  · have none : namesOf ⟨kind, source⟩ = [] := by
      obtain ⟨noClass, noStyle, noAttributes⟩ := other
      cases kind <;> first | rfl | contradiction
    rw [none]
    exact (List.filter_eq_self.mpr fun _ _ => by simp).symm

/-- **What the bindings of an element do to the literal attributes**, in whatever order they stand:
they leave those of whose names none of them makes one. -/
theorem allBindingSteps_left (once : (attributes.map Prod.fst).Nodup)
    (made : allBindingSteps bindings attributes = .ok (steps, left)) :
    left = (attributes.filter fun entry => ∀ binding ∈ bindings, entry.1 ∉ namesOf binding) ∧
      steps.map Step.attributeName? = (bindings.flatMap namesOf).map some := by
  refine ⟨?_, names_of_allBindingSteps made⟩
  induction bindings generalizing attributes steps with
  | nil =>
    cases made
    exact (List.filter_eq_self.mpr fun _ _ => by simp).symm
  | cons binding rest ih =>
    obtain ⟨own, remaining, more, first, others, rfl⟩ := allBindingSteps_cons made
    obtain ⟨rfl, _⟩ := bindingSteps_left once first
    rw [ih (nodup_filter once _) others]
    exact filter_twice (fun _ => List.forall_mem_cons) attributes

/-! ### Styles -/

/-- The declarations of a style binding, whose values are expressions. -/
def dynamicOf (entries : List (String × String)) : List (String × Expression) :=
  entries.map fun (key, source) => (Style.propertyName key, Expression.parse source)

/-- The declarations of a literal style whose properties are not among the dynamic ones. -/
def fixedOf (literal : String) (dynamic : List (String × Expression)) : List Style.Declaration :=
  (Style.parseDeclarations literal).filter fun declaration =>
    declaration.1 ∉ dynamic.map Prod.fst

/-- The step of a style binding. -/
theorem styleStep_eq_ok {source literal : String} {step : Step} :
    styleStep source literal = .ok step ↔ ∃ entries, Binding.entriesOf source = .ok entries ∧
      step = .styles (fixedOf literal (dynamicOf entries)) (dynamicOf entries) := by
  have kept : ∀ entries, ((Style.parseDeclarations literal).filter fun declaration =>
      !(dynamicOf entries).any fun entry => entry.1 == declaration.1) =
        fixedOf literal (dynamicOf entries) := by
    intro entries
    refine List.filter_congr fun declaration _ => ?_
    rw [Bool.eq_iff_iff, decide_eq_true_iff, Bool.not_eq_true', List.any_eq_false, List.mem_map]
    simp only [beq_iff_eq, not_exists, not_and]
  rw [styleStep]
  rcases Binding.entriesOf source with error | entries
  · simp [Except.map]
  · show Except.ok (Step.styles ((Style.parseDeclarations literal).filter fun declaration =>
      !(dynamicOf entries).any fun entry => entry.1 == declaration.1) (dynamicOf entries)) = _ ↔ _
    rw [kept]
    constructor
    · rintro ⟨⟩
      exact ⟨entries, rfl, rfl⟩
    · rintro ⟨_, ⟨⟩, rfl⟩
      rfl

/-- The literal style that is left to a style binding by the bindings before it. -/
def styleBehind (before : List Binding) (attributes : List Attribute) : String :=
  if ∃ earlier ∈ before, "style" ∈ namesOf earlier then "" else (attributes.lookup "style").getD ""

theorem styleBehind_nil (attributes : List Attribute) :
    styleBehind [] attributes = (attributes.lookup "style").getD "" :=
  if_neg (by simp)

theorem styleBehind_cons (binding : Binding) (before : List Binding)
    (attributes : List Attribute) :
    styleBehind (binding :: before) attributes =
      styleBehind before (attributes.filter fun entry => entry.1 ∉ namesOf binding) := by
  rw [styleBehind, styleBehind, lookup_filter]
  simp only [List.mem_cons, exists_eq_or_imp]
  by_cases first : "style" ∈ namesOf binding
  · rw [if_pos (Or.inl first), if_pos first, Option.getD_none, ite_self]
  · simp only [first, false_or, if_false]

/-- The step of a style binding is the only style step of the binding. -/
theorem mem_styles_of_bindingSteps {binding : Binding}
    (made : bindingSteps binding attributes = .ok (steps, left))
    {fixed : List Style.Declaration} {dynamic : List (String × Expression)} :
    .styles fixed dynamic ∈ steps ↔ ∃ source entries, binding = ⟨.styles, source⟩ ∧
      Binding.entriesOf source = .ok entries ∧ dynamic = dynamicOf entries ∧
        fixed = fixedOf ((attributes.lookup "style").getD "") dynamic := by
  obtain ⟨kind, source⟩ := binding
  rcases bindingSteps_cases made with ⟨step, rfl, rfl, stepped, _⟩ |
    ⟨step, rfl, rfl, stepped, _⟩ | ⟨entries, rfl, _, same⟩ | ⟨other, rfl, _⟩
  · obtain ⟨classes, names, rfl⟩ := exists_of_classStep stepped
    simp
  · rw [takeAttribute_fst] at stepped
    obtain ⟨entries, parsed, rfl⟩ := styleStep_eq_ok.mp stepped
    rw [List.mem_singleton, Step.styles.injEq]
    constructor
    · rintro ⟨rfl, rfl⟩
      exact ⟨source, entries, rfl, parsed, rfl, rfl⟩
    · rintro ⟨_, found, ⟨⟩, also, rfl, rfl⟩
      rw [parsed] at also
      cases also
      exact ⟨rfl, rfl⟩
  · obtain ⟨rfl, _⟩ := Prod.mk.inj same
    simp
  · simp [other.2.1]

/-- **The style steps of an element**: one for each style binding, with the declarations of the
literal style that the bindings before it leave. -/
theorem mem_styles_of_allBindingSteps (once : (attributes.map Prod.fst).Nodup)
    (made : allBindingSteps bindings attributes = .ok (steps, left))
    {fixed : List Style.Declaration} {dynamic : List (String × Expression)} :
    .styles fixed dynamic ∈ steps ↔ ∃ before source after entries,
      bindings = before ++ ⟨.styles, source⟩ :: after ∧
        Binding.entriesOf source = .ok entries ∧ dynamic = dynamicOf entries ∧
        fixed = fixedOf (styleBehind before attributes) dynamic := by
  induction bindings generalizing attributes steps with
  | nil =>
    cases made
    simp
  | cons binding rest ih =>
    obtain ⟨own, remaining, more, first, others, rfl⟩ := allBindingSteps_cons made
    obtain ⟨rfl, _⟩ := bindingSteps_left once first
    rw [List.mem_append, mem_styles_of_bindingSteps first, ih (nodup_filter once _) others]
    constructor
    · rintro (⟨source, entries, rfl, parsed, same, kept⟩ |
        ⟨before, source, after, entries, rfl, parsed, same, kept⟩)
      · exact ⟨[], source, rest, entries, rfl, parsed, same, styleBehind_nil _ ▸ kept⟩
      · exact ⟨binding :: before, source, after, entries, rfl, parsed, same,
          styleBehind_cons binding before _ ▸ kept⟩
    · rintro ⟨_ | ⟨_, before⟩, source, after, entries, split, parsed, same, kept⟩
      · obtain ⟨rfl, rfl⟩ := List.cons.inj split
        exact Or.inl ⟨source, entries, rfl, parsed, same, styleBehind_nil _ ▸ kept⟩
      · obtain ⟨rfl, rfl⟩ := List.cons.inj split
        exact Or.inr ⟨before, source, after, entries, rfl, parsed, same,
          styleBehind_cons binding before _ ▸ kept⟩

/-- The declarations whose values are truthy stand in the order of the binding. -/
theorem dynamicDeclarations_eq (runtime : Runtime) (context : Context)
    (entries : List (String × Expression)) :
    (dynamicDeclarations runtime context entries).1 =
      (entries.filter fun entry => (runtime.evaluate context entry.2).1.isTruthy).map fun entry =>
        styleText entry.1 (runtime.evaluate context entry.2).1.toText := by
  induction entries with
  | nil => rfl
  | cons entry rest ih =>
    rw [dynamicDeclarations, List.filter_cons]
    by_cases truthy : (runtime.evaluate context entry.2).1.isTruthy = true
    · simp only [if_pos truthy, List.map_cons, ih, List.singleton_append]
    · simp only [if_neg truthy, ih, List.nil_append]

/-! ### Elements that are met -/

section Elements

variable {index : Block.Index} {nodes : List Tree} {plan : Plan} {state : Compiling}
  {parent : Option Tree} {node : Tree} {tag source : String}

/-- The steps of an element are its start tag and its content, under its condition. -/
theorem exists_of_finishElement {inner : List Tree → Checked Plan} {children : List Tree}
    {opening : List Step} {element : ElementPlan}
    (made : (finishElement inner tag bindings children opening).result = .ok element) :
    ∃ inside, element.steps = guardedBy bindings (opening ++ inside) := by
  rw [finishElement] at made
  by_cases leaves : leavesContent bindings = true
  · rw [if_pos leaves] at made
    cases made
    rw [leavesContent_eq, Bool.and_eq_true, Bool.and_eq_true] at leaves
    refine ⟨[], ?_⟩
    rw [guardedBy, Option.isNone_iff_eq_none.mp leaves.1.1, List.append_nil]
  · rw [if_neg leaves] at made
    obtain ⟨inside, _, finished⟩ := result_bind made
    cases finished
    exact ⟨inside, rfl⟩

/-- The literal attributes of an element that are written as they are: none of them is the binding
attribute, and of none the name is that of an attribute that a binding makes. -/
def survivors (config : Config) (bindings : List Binding) (attributes : List Attribute) :
    List Attribute :=
  attributes.filter fun entry =>
    entry.1 ≠ config.bindingAttribute ∧ ∀ binding ∈ bindings, entry.1 ∉ namesOf binding

/-- The attributes that all bindings leave, of those that are not the binding attribute. -/
theorem filter_others (config : Config) (bindings : List Binding) (attributes : List Attribute) :
    ((attributes.filter fun entry => entry.1 ∉ [config.bindingAttribute]).filter fun entry =>
        ∀ binding ∈ bindings, entry.1 ∉ namesOf binding) =
      survivors config bindings attributes := by
  refine filter_twice (fun entry => ?_) attributes
  rw [List.mem_singleton]

/-- **An element with bindings that is met** adds its start tag and its content to the plan. -/
theorem exists_of_met (compiled : (compile config index nodes).result = .ok plan)
    (met : Meets config index nodes state parent node)
    (content : node.content = .element tag attributes)
    (bound : attributes.lookup config.bindingAttribute = some source) :
    ∃ bindings steps left inside, (Binding.parseContainer source tag).result = .ok bindings ∧
      allBindingSteps bindings (attributes.filter fun entry =>
        entry.1 ∉ [config.bindingAttribute]) = .ok (steps, left) ∧
      Emits config index nodes state parent node
        (guardedBy bindings (startSteps tag steps left ++ inside)) := by
  obtain ⟨clean, emits⟩ := emits_of_meets compiled met
  unfold passVisit at clean emits
  rw [compileVisit_opening met.active, content] at clean emits
  simp only [visitElement, bound] at clean emits
  obtain ⟨element, made, same⟩ := Compiling.exists_of_after clean
  obtain ⟨bindings, steps, left, parsed, opened, finished⟩ := exists_of_elementPlan made
  obtain ⟨inside, whole⟩ := exists_of_finishElement finished
  have others : attributes.filter (fun entry => entry.1 ∉ [config.bindingAttribute]) =
      attributes.filter fun entry => entry.1 != config.bindingAttribute := by
    refine List.filter_congr fun entry _ => ?_
    rw [Bool.eq_iff_iff, decide_eq_true_iff, List.mem_singleton, bne_iff_ne]
  refine ⟨bindings, steps, left, inside, parsed, others ▸ opened, emits _ ?_⟩
  rw [same, whole]

/-- Of distinct attributes just those survive of whose names the bindings make none. -/
theorem emits_of_element (compiled : (compile config index nodes).result = .ok plan)
    (met : Meets config index nodes state parent node)
    (content : node.content = .element tag attributes)
    (bound : attributes.lookup config.bindingAttribute = some source)
    (once : (attributes.map Prod.fst).Nodup) :
    ∃ bindings steps inside, (Binding.parseContainer source tag).result = .ok bindings ∧
      allBindingSteps bindings (attributes.filter fun entry =>
        entry.1 ∉ [config.bindingAttribute]) = .ok (steps, survivors config bindings attributes) ∧
      Emits config index nodes state parent node (guardedBy bindings
        (startSteps tag steps (survivors config bindings attributes) ++ inside)) := by
  obtain ⟨bindings, steps, left, inside, parsed, opened, emits⟩ :=
    exists_of_met compiled met content bound
  obtain ⟨kept, _⟩ := allBindingSteps_left (nodup_filter once _) opened
  rw [kept, filter_others] at opened emits
  exact ⟨bindings, steps, inside, parsed, opened, emits⟩

/-- The start tag of an element with bindings: what its steps write, and in what order. -/
structure StartTag (config : Config) (tag : String) (attributes : List Attribute)
    (bindings : List Binding) (steps : List Step) : Prop where
  /-- The bindings make attributes, each step one. -/
  names : steps.map Step.attributeName? = (bindings.flatMap namesOf).map some
  /-- The declarations of the literal style stay that the style binding does not set, unless an
  entry of the attribute binding before it has taken the style. -/
  styles : ∀ fixed dynamic, .styles fixed dynamic ∈ steps ↔ ∃ before styles after entries,
    bindings = before ++ ⟨.styles, styles⟩ :: after ∧
      Binding.entriesOf styles = .ok entries ∧ dynamic = dynamicOf entries ∧
      fixed = if ∃ earlier ∈ before, earlier.kind = .attributes ∧ "style" ∈ keysOf earlier.source
        then [] else fixedOf ((attributes.lookup "style").getD "") dynamic
  /-- The attributes of the bindings are written first, and then what is left of the literal ones. -/
  written : ∀ runtime context,
    renderAll runtime context (startSteps tag steps (survivors config bindings attributes)) =
      .write ("<" ++ tag) ++ (renderAll runtime context steps ++
        .write (attributesText (survivors config bindings attributes))) ++
        .write (if isVoid tag then " />" else ">")
  /-- Of a style step the fixed declarations are written first, and then the truthy ones. -/
  declarations : ∀ runtime context fixed dynamic,
    (renderStep runtime context (.styles fixed dynamic)).markup =
      attributeText "style" (" ".intercalate
        (fixed.map (fun declaration => styleText declaration.1 declaration.2) ++
          (dynamic.filter fun entry => (runtime.evaluate context entry.2).1.isTruthy).map
            fun entry => styleText entry.1 (runtime.evaluate context entry.2).1.toText))

/-- Before the style binding of an element, the only binding that makes a style attribute is the
attribute binding. -/
theorem fixedOf_styleBehind {before after : List Binding}
    (kinds : ((before ++ ⟨.styles, source⟩ :: after).map Binding.kind).Nodup)
    (config : Config) (attributes : List Attribute) (dynamic : List (String × Expression)) :
    fixedOf (styleBehind before (attributes.filter fun entry =>
        entry.1 ∉ [config.bindingAttribute])) dynamic =
      if ∃ earlier ∈ before, earlier.kind = .attributes ∧ "style" ∈ keysOf earlier.source
        then [] else fixedOf ((attributes.lookup "style").getD "") dynamic := by
  have unbinding : "style" ∉ [config.bindingAttribute] := by
    rw [List.mem_singleton, Config.bindingAttribute]
    split <;> decide
  have single : ∀ earlier ∈ before, earlier.kind ≠ .styles := by
    rw [List.map_append, List.map_cons] at kinds
    intro earlier member same
    exact (List.nodup_append.mp kinds).2.2 _ (List.mem_map_of_mem member) _
      List.mem_cons_self same
  have makes : ∀ earlier ∈ before, "style" ∈ namesOf earlier ↔
      earlier.kind = .attributes ∧ "style" ∈ keysOf earlier.source := by
    intro earlier member
    have other := single earlier member
    rw [namesOf]
    cases kind : earlier.kind <;> simp_all
  have taken : (∃ earlier ∈ before, "style" ∈ namesOf earlier) ↔
      ∃ earlier ∈ before, earlier.kind = .attributes ∧ "style" ∈ keysOf earlier.source :=
    exists_congr fun earlier => and_congr_right (makes earlier)
  rw [styleBehind, lookup_filter, if_neg unbinding]
  simp only [taken]
  split
  · rfl
  · rfl

/-- **The literal attributes that survive the bindings of an element.** Let an element with distinct
attributes be met while a forest is compiled. In whatever order its bindings stand, its start tag
has literally just the attributes that are not the binding attribute, and of whose names no binding
makes one, in source order; the declarations of its literal style are kept that the style binding
does not set. -/
theorem startTag_of_met (compiled : (compile config index nodes).result = .ok plan)
    (met : Meets config index nodes state parent node)
    (content : node.content = .element tag attributes)
    (bound : attributes.lookup config.bindingAttribute = some source)
    (once : (attributes.map Prod.fst).Nodup) :
    ∃ bindings steps inside, (Binding.parseContainer source tag).result = .ok bindings ∧
      Emits config index nodes state parent node (guardedBy bindings
        (startSteps tag steps (survivors config bindings attributes) ++ inside)) ∧
      StartTag config tag attributes bindings steps := by
  obtain ⟨bindings, steps, inside, parsed, made, emits⟩ :=
    emits_of_element compiled met content bound once
  have distinct := nodup_filter once fun entry => entry.1 ∉ [config.bindingAttribute]
  have names := (allBindingSteps_left distinct made).2
  have kinds : (bindings.map Binding.kind).Nodup := by
    obtain ⟨entries, _, rfl, _⟩ := Binding.exists_of_parseContainer parsed
    exact Binding.nodup_bindingsOf entries
  refine ⟨bindings, steps, inside, parsed, emits, names, fun fixed dynamic => ?_,
    fun runtime context => renderAll_startTag runtime context tag steps _,
    fun runtime context fixed dynamic => ?_⟩
  · rw [mem_styles_of_allBindingSteps distinct made]
    refine exists_congr fun before => exists_congr fun styles => exists_congr fun after =>
      exists_congr fun entries => and_congr_right fun split => ?_
    rw [fixedOf_styleBehind (split ▸ kinds)]
  · rw [renderStep, stylesOutput, ← dynamicDeclarations_eq]

/-- A forest of one element that is complete compiles, and the element is met. -/
theorem compiles_and_meets
    (complete : (passVisit config index [node] .start ⟨node, none, true⟩).2 = .skip)
    (clean : (passVisit config index [node] .start ⟨node, none, true⟩).1.error = none) :
    (∃ plan, (compile config index [node]).result = .ok plan) ∧
      Meets config index [node] .start none node := by
  have answer : passVisit config index [node] .start ⟨node, none, true⟩ =
      ((passVisit config index [node] .start ⟨node, none, true⟩).1, .skip) :=
    Prod.ext rfl complete
  constructor
  · refine ⟨(passVisit config index [node] .start ⟨node, none, true⟩).1.draft.plan, ?_⟩
    rw [compile_eq]
    show (traverseAll (passVisit config index [node]) none .start [node]).1.finish.result = _
    rw [traverseAll_of_skip answer, traverseAll_nil, Compiling.finish, clean]
  · refine ⟨?_, rfl⟩
    rw [asked_eq_askedAll, askedAll_of_skip answer]
    exact List.mem_cons_self

end Elements

/-- The attributes of a paragraph with a literal style, and with bindings of it and of the title. -/
def paragraphAttributes : List Attribute :=
  [("style", "color: red; font-weight: normal"), ("title", "a"),
    ("data-bind", "style: {fontWeight: w}, attr: {title: t}, text: x"), ("id", "l")]

/-- The paragraph. -/
def boundParagraph : Tree :=
  .node 0 (.element "p" paragraphAttributes) []

/-- The data of the paragraph. -/
def paragraphData : Value :=
  .object 0 [("w", .string "bold"), ("t", .string "b"), ("x", .string "y")]

/-- The paragraph keeps its id, and the color in its style. -/
theorem startTag_of_met_paragraph : ∃ plan steps inside,
    (compile {} .empty [boundParagraph]).result = .ok plan ∧
    Emits {} .empty [boundParagraph] .start none boundParagraph
      (startSteps "p" steps [("id", "l")] ++ inside) ∧
    StartTag {} "p" paragraphAttributes
      [⟨.styles, "{fontWeight: w}"⟩, ⟨.attributes, "{title: t}"⟩, ⟨.text, "x"⟩] steps ∧
    .styles [("color", "red")] [("font-weight", .parse "w")] ∈ steps ∧
    (renderAll ⟨fieldEvaluator, {}⟩ (Context.root paragraphData) plan).markup =
      "<p style=\"color:red; font-weight:bold;\" title=\"b\" id=\"l\">y</p>" := by
  have shown : (match (compile {} .empty [boundParagraph]).result with
      | .ok plan =>
        decide ((renderAll ⟨fieldEvaluator, {}⟩ (Context.root paragraphData) plan).markup =
          "<p style=\"color:red; font-weight:bold;\" title=\"b\" id=\"l\">y</p>")
      | .error _ => false) = true := by
    simp only [compile_eq]
    decide +kernel
  obtain ⟨⟨plan, compiled⟩, met⟩ :
      (∃ plan, (compile {} .empty [boundParagraph]).result = .ok plan) ∧
        Meets {} .empty [boundParagraph] .start none boundParagraph :=
    compiles_and_meets (by decide +kernel) (by decide +kernel)
  rw [compiled] at shown
  obtain ⟨bindings, steps, inside, parsed, emits, tag⟩ :=
    startTag_of_met compiled met rfl rfl (by decide)
  have known : (Binding.parseContainer "style: {fontWeight: w}, attr: {title: t}, text: x"
      "p").result.toOption =
        some [⟨.styles, "{fontWeight: w}"⟩, ⟨.attributes, "{title: t}"⟩, ⟨.text, "x"⟩] := by
    decide +kernel
  rw [parsed] at known
  cases known
  have kept : survivors {} [⟨.styles, "{fontWeight: w}"⟩, ⟨.attributes, "{title: t}"⟩,
      ⟨.text, "x"⟩] paragraphAttributes = [("id", "l")] := by
    decide +kernel
  have listed : Binding.entriesOf "{fontWeight: w}" = .ok [("fontWeight", "w")] := by
    have read : (Binding.entriesOf "{fontWeight: w}").toOption = some [("fontWeight", "w")] := by
      decide +kernel
    cases found : Binding.entriesOf "{fontWeight: w}" <;> simp_all [Except.toOption]
  have declared : Step.styles [("color", "red")] [("font-weight", .parse "w")] ∈ steps := by
    refine (tag.styles _ _).mpr ⟨[], "{fontWeight: w}", _, [("fontWeight", "w")], rfl, listed,
      by decide +kernel, ?_⟩
    rw [if_neg (by simp)]
    decide +kernel
  rw [kept] at emits
  exact ⟨plan, steps, inside, compiled, emits, tag, declared, of_decide_eq_true shown⟩

end DataBind.Template
