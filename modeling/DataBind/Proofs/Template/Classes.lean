/-
**The class attribute of an element with a class binding.**

The literal classes that no key of the binding mentions stay, and the classes of the keys whose
conditions hold follow them. Repetitions are dropped twice, when the element is compiled and when it
is rendered; together this is one list of classes, each at its first occurrence.

* `conditionalClasses_eq`, `mentions_iff`: the classes of the keys that hold, and those that some key
  mentions;
* `keptClasses`, `shownClasses`: the classes that a binding keeps of the literal ones, and those
  that it shows;
* `exists_of_classStep_shown`: the value that the step of a class binding writes;
* `written_class`: an element with a class binding and no other bound class has one more class
  attribute than literal ones are left;
* `classes_of_met`: the class attribute of an element that is met while a forest is compiled.
-/

import DataBind.Proofs.Template.Repetition
import DataBind.Proofs.Text.Words

namespace DataBind.Template

open Markup Markup.Tree Block Text

variable {runtime : Runtime} {context : Context} {steps : List Step}
  {attributes left : List Attribute} {bindings : List Binding}

/-! ### The classes of a binding -/

/-- The classes of the keys whose conditions hold stand in the order of the binding. -/
theorem conditionalClasses_eq (runtime : Runtime) (context : Context)
    (entries : List (String × Expression)) :
    (conditionalClasses runtime context entries).1 =
      (entries.filter fun entry => (runtime.evaluate context entry.2).1.isTruthy).flatMap
        fun entry => words entry.1 := by
  induction entries with
  | nil => rfl
  | cons entry rest ih =>
    rw [conditionalClasses, List.filter_cons]
    by_cases truthy : (runtime.evaluate context entry.2).1.isTruthy = true
    · simp only [if_pos truthy, List.flatMap_cons, ih]
    · simp only [if_neg truthy, ih, List.nil_append]

theorem mentions_iff {entries : List (String × Expression)} {name : String} :
    mentions entries name = true ↔ ∃ entry ∈ entries, name ∈ words entry.1 := by
  simp only [mentions, List.any_eq_true, List.contains_iff_mem]

/-- Whether a class binding is written as an object literal. -/
def isConditional (source : String) : Prop :=
  (trimmed source).toList.head? = some '\x7b'

/-- The value of the source of an expression, undefined if its evaluation fails. -/
def valueOf (runtime : Runtime) (context : Context) (source : String) : Value :=
  (runtime.evaluate context (.parse source)).1

/-- **The classes that an element shows** with a literal class attribute and a class binding: tokens
without repetitions. For a binding of keys and conditions, a class is shown if it is literal and no
key mentions it, or if some key that mentions it has a truthy condition; the literal classes come
first, and then those of the truthy keys. For a binding of an expression the literal classes come
first, and then the words of a truthy value. -/
structure ShownClasses (runtime : Runtime) (context : Context) (source literal : String)
    (names : List String) : Prop where
  tokens : ∀ name ∈ names, IsToken name
  single : names.Nodup
  conditional : isConditional source → ∃ entries,
    Binding.entriesOf (trimmed source) = .ok entries ∧
      (∀ name, name ∈ names ↔
        (name ∈ words literal ∧ ∀ entry ∈ entries, name ∉ words entry.1) ∨
          ∃ entry ∈ entries, name ∈ words entry.1 ∧
            (valueOf runtime context entry.2).isTruthy = true) ∧
      FirstOccurrences
        ((words literal).filter (fun name => ∀ entry ∈ entries, name ∉ words entry.1) ++
          (entries.filter fun entry => (valueOf runtime context entry.2).isTruthy).flatMap
            fun entry => words entry.1) names
  expression : ¬ isConditional source →
    FirstOccurrences
      (words literal ++
        if (valueOf runtime context (trimmed source)).isTruthy then
          words (valueOf runtime context (trimmed source)).toText
        else []) names

/-- Tokens of a list of words are tokens. -/
theorem isToken_of_firstOccurrences {elements names : List String}
    (first : FirstOccurrences elements names)
    (tokens : ∀ name ∈ elements, ∃ text, name ∈ words text) : ∀ name ∈ names, IsToken name := by
  intro name member
  obtain ⟨text, found⟩ := tokens name ((first.mem_iff name).mp member)
  exact isToken_of_mem_words found

/-- **The step of a class binding** writes the classes that the element shows. -/
theorem exists_of_classStep_shown {source literal : String} {step : Step}
    (made : classStep source literal = .ok step) (runtime : Runtime) (context : Context) :
    ∃ names, step.attribute? runtime context = some ("class", " ".intercalate names) ∧
      ShownClasses runtime context source literal names := by
  unfold classStep at made
  simp only at made
  split at made
  · rename_i rest start
    obtain ⟨entries, parsed, rfl⟩ := exists_of_map_eq_ok made
    have brace : isConditional source := by
      rw [isConditional, start]
      rfl
    have kept : ∀ name, (!mentions (expressionsOf entries) name) =
        decide (∀ entry ∈ entries, name ∉ words entry.1) := by
      intro name
      rw [Bool.eq_iff_iff, Bool.not_eq_true', ← Bool.not_eq_true, mentions_iff, decide_eq_true_iff]
      simp [expressionsOf]
    have shown : (conditionalClasses runtime context (expressionsOf entries)).1 =
        (entries.filter fun entry => (valueOf runtime context entry.2).isTruthy).flatMap
          fun entry => words entry.1 := by
      rw [conditionalClasses_eq, expressionsOf, List.filter_map, List.flatMap_map]
      rfl
    have first := firstOccurrences_distinct
      ((words literal).filter (fun name => ∀ entry ∈ entries, name ∉ words entry.1) ++
        (entries.filter fun entry => (valueOf runtime context entry.2).isTruthy).flatMap
          fun entry => words entry.1)
    refine ⟨_, ?_, ?_, first.nodup, fun _ => ⟨entries, parsed, fun name => ?_, first⟩,
      fun other => absurd brace other⟩
    · rw [← distinct_filter_append, ← shown, List.filter_congr fun name _ => (kept name).symm]
      rfl
    · refine isToken_of_firstOccurrences first fun name member => ?_
      rcases List.mem_append.mp member with literal' | dynamic
      · exact ⟨literal, (List.mem_filter.mp literal').1⟩
      · obtain ⟨entry, _, found⟩ := List.mem_flatMap.mp dynamic
        exact ⟨entry.1, found⟩
    · rw [first.mem_iff, List.mem_append, List.mem_filter, List.mem_flatMap, decide_eq_true_iff]
      simp only [List.mem_filter, and_assoc, and_comm (a := _ = true)]
  · rename_i other
    cases made
    have bare : ¬ isConditional source := by
      intro start
      obtain ⟨rest, same⟩ := List.head?_eq_some_iff.mp start
      exact other rest same
    have first := firstOccurrences_distinct
      (words literal ++
        if (valueOf runtime context (trimmed source)).isTruthy then
          words (valueOf runtime context (trimmed source)).toText
        else [])
    refine ⟨_, ?_, ?_, first.nodup, fun brace => absurd brace bare, fun _ => first⟩
    · rw [← distinct_append]
      rfl
    · refine isToken_of_firstOccurrences first fun name member => ?_
      rcases List.mem_append.mp member with own | dynamic
      · exact ⟨literal, own⟩
      · split at dynamic
        · exact ⟨_, dynamic⟩
        · cases dynamic

/-! ### The class attribute -/

/-- Whether an attribute is a class attribute. -/
def isClass (entry : Attribute) : Bool :=
  entry.1 == "class"

theorem lookup_eq_filter (attributes : List Attribute) :
    attributes.lookup "class" = (attributes.filter isClass).head?.map Prod.snd := by
  induction attributes with
  | nil => rfl
  | cons entry rest ih =>
    obtain ⟨key, value⟩ := entry
    rw [List.lookup_cons, List.filter_cons, isClass]
    by_cases same : key = "class"
    · subst same
      rfl
    · rw [beq_false_of_ne (Ne.symm same), if_neg (by simpa using same)]
      exact ih

/-- Taking the class attribute leaves the class attributes behind the first. -/
theorem filter_takeClass (attributes : List Attribute) :
    (takeAttribute "class" attributes).2.filter isClass = (attributes.filter isClass).tail := by
  induction attributes with
  | nil => rfl
  | cons entry rest ih =>
    obtain ⟨key, value⟩ := entry
    rw [takeAttribute]
    by_cases same : key = "class"
    · subst same
      rfl
    · have other : ¬ isClass (key, value) = true := by simpa [isClass] using same
      rw [if_neg same]
      show ((key, value) :: (takeAttribute "class" rest).2).filter isClass = _
      rw [List.filter_cons_of_neg other, List.filter_cons_of_neg other, ih]

/-- Taking another attribute leaves the class attributes. -/
theorem filter_takeOther {name : String} (other : name ≠ "class") (attributes : List Attribute) :
    (takeAttribute name attributes).2.filter isClass = attributes.filter isClass := by
  induction attributes with
  | nil => rfl
  | cons entry rest ih =>
    obtain ⟨key, value⟩ := entry
    rw [takeAttribute]
    by_cases same : key = name
    · have apart : ¬ isClass (key, value) = true := by simpa [isClass, same] using other
      rw [if_pos same, List.filter_cons_of_neg apart]
    · rw [if_neg same]
      show ((key, value) :: (takeAttribute name rest).2).filter isClass = _
      rw [List.filter_cons, List.filter_cons, ih]

theorem filter_takeOthers {entries : List (String × String)}
    (others : "class" ∉ entries.map Prod.fst) (attributes : List Attribute) :
    (entries.foldl (fun left (name, _) => (takeAttribute name left).2) attributes).filter isClass =
      attributes.filter isClass := by
  induction entries generalizing attributes with
  | nil => rfl
  | cons entry rest ih =>
    rw [List.map_cons, List.mem_cons, not_or] at others
    exact (ih others.2 _).trans (filter_takeOther (Ne.symm others.1) attributes)

/-- A binding that makes no class attribute leaves the literal ones. -/
theorem filter_of_bindingSteps {binding : Binding} (free : "class" ∉ namesOf binding)
    (made : bindingSteps binding attributes = .ok (steps, left)) :
    left.filter isClass = attributes.filter isClass := by
  obtain ⟨kind, source⟩ := binding
  rcases bindingSteps_cases made with ⟨step, rfl, _, _, _⟩ | ⟨step, rfl, _, _, rfl⟩ |
    ⟨entries, rfl, parsed, same⟩ | ⟨_, _, rfl⟩
  · exact absurd List.mem_cons_self free
  · exact filter_takeOther (by decide) attributes
  · rw [(Prod.mk.inj same).2]
    refine filter_takeOthers ?_ attributes
    simpa only [namesOf, keysOf, parsed] using free
  · rfl

/-- So do several of them. -/
theorem filter_of_allBindingSteps (free : ∀ binding ∈ bindings, "class" ∉ namesOf binding)
    (made : allBindingSteps bindings attributes = .ok (steps, left)) :
    left.filter isClass = attributes.filter isClass := by
  induction bindings generalizing attributes steps with
  | nil =>
    cases made
    rfl
  | cons binding rest ih =>
    obtain ⟨own, others⟩ := List.forall_mem_cons.mp free
    obtain ⟨first, remaining, more, here, later, rfl⟩ := allBindingSteps_cons made
    rw [ih others later, filter_of_bindingSteps own here]

/-- Steps of other names write no class attribute. -/
theorem filter_written {names : List String} (named : steps.map Step.attributeName? = names.map some)
    (free : "class" ∉ names) (runtime : Runtime) (context : Context) :
    (steps.filterMap (Step.attribute? runtime context)).filter isClass = [] := by
  refine List.filter_eq_nil_iff.mpr fun entry member same => free ?_
  obtain ⟨step, inside, writes⟩ := List.mem_filterMap.mp member
  have listed := List.mem_map_of_mem (f := Step.attributeName?) inside
  rw [named, attributeName?_of_attribute? writes] at listed
  obtain ⟨name, found, equal⟩ := List.mem_map.mp listed
  cases equal
  rwa [show entry.1 = "class" from beq_iff_eq.mp same] at found

/-- **The class attributes of a start tag** whose only binding that makes one is a class binding:
the one that its step writes, and the literal ones behind the first. -/
theorem written_class {source : String} (kinds : (bindings.map Binding.kind).Nodup)
    (free : ∀ binding ∈ bindings, binding.kind ≠ .classes → "class" ∉ namesOf binding)
    (member : ⟨.classes, source⟩ ∈ bindings)
    (made : allBindingSteps bindings attributes = .ok (steps, left)) :
    ∃ step, classStep source ((attributes.lookup "class").getD "") = .ok step ∧
      ∀ runtime context, (writtenAttributes runtime context steps left).filter isClass =
        (step.attribute? runtime context).toList ++ (attributes.filter isClass).tail := by
  induction bindings generalizing attributes steps with
  | nil => cases member
  | cons binding rest ih =>
    obtain ⟨apart, kinds⟩ := List.nodup_cons.mp kinds
    obtain ⟨_, others⟩ := List.forall_mem_cons.mp free
    obtain ⟨own, remaining, more, first, later, rfl⟩ := allBindingSteps_cons made
    have split : ∀ runtime context,
        (writtenAttributes runtime context (own ++ more) left).filter isClass =
          (own.filterMap (Step.attribute? runtime context)).filter isClass ++
            ((more.filterMap (Step.attribute? runtime context)).filter isClass ++
              left.filter isClass) := by
      intro runtime context
      rw [writtenAttributes, List.filterMap_append, List.filter_append, List.filter_append,
        List.append_assoc]
    rcases List.mem_cons.mp member with rfl | inside
    · have none : ∀ other ∈ rest, "class" ∉ namesOf other := fun other inside =>
        others other inside fun same => apart (List.mem_map.mpr ⟨other, inside, same⟩)
      rcases bindingSteps_cases first with ⟨step, _, rfl, stepped, rfl⟩ | ⟨_, wrong, _⟩ |
        ⟨_, wrong, _⟩ | ⟨⟨wrong, _⟩, _⟩
      · rw [takeAttribute_fst] at stepped
        refine ⟨step, stepped, fun runtime context => ?_⟩
        have names := names_of_allBindingSteps later
        have absent : "class" ∉ rest.flatMap namesOf := fun found => by
          obtain ⟨other, inside, same⟩ := List.mem_flatMap.mp found
          exact none other inside same
        obtain ⟨shown, writes, _⟩ := exists_of_classStep_shown stepped runtime context
        rw [split, filter_written names absent, filter_of_allBindingSteps none later,
          filter_takeClass, List.nil_append, writes]
        simp [writes, isClass]
      · cases wrong
      · cases wrong
      · exact absurd rfl wrong
    · have other : binding.kind ≠ .classes := fun same =>
        apart (same ▸ List.mem_map_of_mem inside)
      have none := free binding List.mem_cons_self other
      have kept := filter_of_bindingSteps none first
      obtain ⟨step, stepped, written⟩ := ih kinds others inside later
      rw [lookup_eq_filter, kept, ← lookup_eq_filter] at stepped
      refine ⟨step, stepped, fun runtime context => ?_⟩
      have names := names_of_bindingSteps first
      rw [split, filter_written names none, ← kept, ← written runtime context, writtenAttributes,
        List.filter_append, List.nil_append]

/-! ### Elements that are met -/

section Elements

variable {config : Config} {index : Block.Index} {nodes : List Tree} {plan : Plan}
  {state : Compiling} {parent : Option Tree} {node : Tree} {tag source css : String}

/-- **The class attribute of an element with a class binding.** Let an element be met while a forest
is compiled, with a class binding and no entry of an attribute binding that is named class. In every
context its start tag has a class attribute with the classes that the element shows, separated by
single spaces, and behind it at most the class attributes that it has literally a second time. -/
theorem classes_of_met (compiled : (compile config index nodes).result = .ok plan)
    (met : Meets config index nodes state parent node)
    (content : node.content = .element tag attributes)
    (bound : attributes.lookup config.bindingAttribute = some source)
    (parsed : (Binding.parseContainer source tag).result = .ok bindings)
    (member : ⟨.classes, css⟩ ∈ bindings)
    (free : ∀ binding ∈ bindings, binding.kind = .attributes → "class" ∉ keysOf binding.source) :
    ∃ steps left inside,
      Emits config index nodes state parent node
        (guardedBy bindings (startSteps tag steps left ++ inside)) ∧
      ∀ runtime context,
        (renderAll runtime context (startSteps tag steps left)).markup =
          tagStart tag (writtenAttributes runtime context steps left) ++
            (if isVoid tag then " />" else ">") ∧
        ∃ names, ShownClasses runtime context css ((attributes.lookup "class").getD "") names ∧
          words (" ".intercalate names) = names ∧
          (writtenAttributes runtime context steps left).filter (fun entry => entry.1 == "class") =
            ("class", " ".intercalate names) ::
              (attributes.filter fun entry => entry.1 == "class").tail := by
  obtain ⟨found, steps, left, inside, also, made, emits⟩ := exists_of_met compiled met content bound
  rw [parsed] at also
  cases also
  have kinds : (bindings.map Binding.kind).Nodup := by
    obtain ⟨entries, _, rfl, _⟩ := Binding.exists_of_parseContainer parsed
    exact Binding.nodup_bindingsOf entries
  have others : ∀ binding ∈ bindings, binding.kind ≠ .classes → "class" ∉ namesOf binding := by
    intro binding inside other
    have none := free binding inside
    rw [namesOf]
    cases kind : binding.kind <;> simp_all
  obtain ⟨step, stepped, written⟩ := written_class kinds others member made
  have unbinding : "class" ∉ [config.bindingAttribute] := by
    rw [List.mem_singleton, Config.bindingAttribute]
    split <;> decide
  rw [lookup_filter, if_neg unbinding] at stepped
  have same : (attributes.filter fun entry => entry.1 ∉ [config.bindingAttribute]).filter isClass =
      attributes.filter isClass := by
    rw [List.filter_filter]
    refine List.filter_congr fun entry _ => ?_
    rw [Bool.and_eq_left_iff_imp, decide_eq_true_iff]
    intro classes
    rwa [show entry.1 = "class" from beq_iff_eq.mp classes]
  refine ⟨steps, left, inside, emits, fun runtime context =>
    ⟨markup_startTag (isSome_of_allBindingSteps made) tag, ?_⟩⟩
  obtain ⟨names, writes, shown⟩ := exists_of_classStep_shown stepped runtime context
  refine ⟨names, shown, words_intercalate shown.tokens, ?_⟩
  have whole := written runtime context
  rw [writes, same] at whole
  exact whole

end Elements

/-- A paragraph with literal classes, and keys of which two name the same class. -/
def classParagraph : Tree :=
  .node 0 (.element "p" [("class", "a b  a c"),
    ("data-bind", "css: \x7b\x27b d\x27: x, b: y\x7d, text: z")]) []

/-- The entries of its class binding. -/
theorem entriesOf_classParagraph : Binding.entriesOf (trimmed "\x7b\x27b d\x27: x, b: y\x7d") =
    .ok [("b d", "x"), ("b", "y")] := by
  have read : (Binding.entriesOf (trimmed "\x7b\x27b d\x27: x, b: y\x7d")).toOption =
      some [("b d", "x"), ("b", "y")] := by
    decide +kernel
  cases found : Binding.entriesOf (trimmed "\x7b\x27b d\x27: x, b: y\x7d") <;>
    simp_all [Except.toOption]

/-- Data where the second key is off. -/
def classData : Value :=
  .object 0 [("x", .bool true), ("y", .bool false), ("z", .string "t")]

/-- Where all expressions are true, the paragraph shows the literal classes that no key mentions,
and then the class that both keys name once. So it does where only the first of the keys is on. -/
theorem classes_of_met_paragraph : ∃ plan steps left inside,
    (compile {} .empty [classParagraph]).result = .ok plan ∧
    Emits {} .empty [classParagraph] .start none classParagraph
      (startSteps "p" steps left ++ inside) ∧
    (∀ context, (writtenAttributes (affirming {}) context steps left).filter
      (fun entry => entry.1 == "class") = [("class", "a c b d")]) ∧
    (renderAll ⟨fieldEvaluator, {}⟩ (Context.root classData) plan).markup =
      "<p class=\"a c b d\">t</p>" := by
  have text : (match (compile {} .empty [classParagraph]).result with
      | .ok plan => decide ((renderAll ⟨fieldEvaluator, {}⟩ (Context.root classData) plan).markup =
          "<p class=\"a c b d\">t</p>")
      | .error _ => false) = true := by
    simp only [compile_eq]
    decide +kernel
  obtain ⟨⟨plan, compiled⟩, met⟩ :
      (∃ plan, (compile {} .empty [classParagraph]).result = .ok plan) ∧
        Meets {} .empty [classParagraph] .start none classParagraph :=
    compiles_and_meets (by decide +kernel) (by decide +kernel)
  rw [compiled] at text
  have parsed : (Binding.parseContainer "css: \x7b\x27b d\x27: x, b: y\x7d, text: z" "p").result =
      .ok [⟨.classes, "\x7b\x27b d\x27: x, b: y\x7d"⟩, ⟨.text, "z"⟩] := by
    have read : (Binding.parseContainer "css: \x7b\x27b d\x27: x, b: y\x7d, text: z"
        "p").result.toOption = some [⟨.classes, "\x7b\x27b d\x27: x, b: y\x7d"⟩, ⟨.text, "z"⟩] := by
      decide +kernel
    cases found : (Binding.parseContainer "css: \x7b\x27b d\x27: x, b: y\x7d, text: z"
        "p").result <;> simp_all [Except.toOption]
  obtain ⟨steps, left, inside, emits, shows⟩ :=
    classes_of_met compiled met rfl rfl parsed List.mem_cons_self (by decide)
  refine ⟨plan, steps, left, inside, compiled, emits, fun context => ?_, of_decide_eq_true text⟩
  obtain ⟨_, names, shown, _, written⟩ := shows (affirming {}) context
  obtain ⟨entries, listed, _, first⟩ := shown.conditional (by rw [isConditional]; decide +kernel)
  rw [entriesOf_classParagraph] at listed
  cases listed
  have truthy : ∀ source, (valueOf (affirming {}) context source).isTruthy = true := fun _ => rfl
  simp only [truthy] at first
  rw [written, first.unique (firstOccurrences_distinct _)]
  decide +kernel

end DataBind.Template
