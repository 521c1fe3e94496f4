/-
**Data cannot change the structure of the markup.**

Every node of a template is written as one construct that is read again as one, and what a binding
writes is escaped. So two runs of a template that take the same decisions write markup of the same
structure, whatever strings the data holds.

* `Inside`: steps that can stand between the tags of an element, which bindings keep;
* `steadyNames_of_allBindingSteps`, `steady_startSteps`, `steady_nodeSteps`: the steps of
  attributes, of start tags and of nodes write alike in two runs that agree;
* `steady_assemble`: so do the steps of a forest that has been read;
* `render_sameOutline`: so does a compiled template, and both outputs are accepted as markup.
-/

import DataBind.Proofs.Template.Agreement

namespace DataBind.Template

open Markup Markup.Tree Block Checked

/-! ### Attributes -/

theorem SteadyNames.nil : SteadyNames [] := by
  intro run other _ _
  rw [Run.write_nil, Run.write_nil]
  exact .empty

/-- Attributes that are always written with one name, in whatever run. -/
theorem steadyNames_of_write {steps : List Step} (name : String) (readable : ReadableName name)
    (written : ∀ run : Run, ∃ value, run.write steps = attributeText name value) :
    SteadyNames steps := by
  intro run other _ _
  obtain ⟨value, first⟩ := written run
  obtain ⟨another, second⟩ := written other
  rw [first, second]
  exact ⟨_, readsNames_attributeText readable value, readsNames_attributeText readable another⟩

theorem steadyNames_classes (fixed : List String) (dynamic : ClassBinding) :
    SteadyNames [.classes fixed dynamic] := by
  refine steadyNames_of_write "class" (Or.inr ⟨by decide, List.all_eq_true.mp (by decide)⟩)
    fun run => ?_
  rw [Run.write_singleton, renderStep]
  exact ⟨_, rfl⟩

theorem steadyNames_styles (fixed : List Style.Declaration)
    (dynamic : List (String × Expression)) : SteadyNames [.styles fixed dynamic] := by
  refine steadyNames_of_write "style" (Or.inr ⟨by decide, List.all_eq_true.mp (by decide)⟩)
    fun run => ?_
  rw [Run.write_singleton, renderStep]
  exact ⟨_, rfl⟩

theorem markup_attributeOutput (name : String) (value : Value) :
    (attributeOutput name value).markup =
      if isSuppressed value then "" else attributeText name value.toText := by
  cases value with
  | bool flag => cases flag <;> rfl
  | undefined => rfl
  | null => rfl
  | number _ => rfl
  | string _ => rfl
  | array _ _ => rfl
  | object _ _ => rfl
  | function _ _ => rfl

/-- An attribute from the data is omitted in both runs or written with its name in both. -/
theorem steadyNames_attribute {name : String} (nonempty : name ≠ "") (value : Expression) :
    SteadyNames [.attribute name value] := by
  intro run other confined agree
  have readable : ReadableName name := Or.inr ⟨nonempty, confined.1⟩
  have same : isSuppressed (run.value value) = isSuppressed (other.value value) := agree.1
  rw [Run.write_attribute, Run.write_attribute, markup_attributeOutput, markup_attributeOutput,
    ← same]
  cases isSuppressed (run.value value) with
  | true => exact .empty
  | false => exact ⟨_, readsNames_attributeText readable _, readsNames_attributeText readable _⟩

theorem exists_of_classStep {source literal : String} {step : Step}
    (made : classStep source literal = .ok step) :
    ∃ fixed dynamic, step = .classes fixed dynamic := by
  unfold classStep at made
  simp only at made
  split at made
  · obtain ⟨entries, _, rfl⟩ := Text.exists_of_map_eq_ok made
    exact ⟨_, _, rfl⟩
  · cases made
    exact ⟨_, _, rfl⟩

theorem exists_of_styleStep {source literal : String} {step : Step}
    (made : styleStep source literal = .ok step) :
    ∃ fixed dynamic, step = .styles fixed dynamic := by
  obtain ⟨entries, _, rfl⟩ := Text.exists_of_map_eq_ok made
  exact ⟨_, _, rfl⟩

/-- An entry of an object literal has a key. -/
theorem key_ne_empty_of_parseEntry {entry : List Char} {pair : String × String}
    (parsed : Binding.parseEntry entry = .ok pair) : pair.1 ≠ "" := by
  obtain ⟨parts, _, parsed⟩ := Text.exists_of_bind_eq_ok parsed
  split at parsed
  · simp only at parsed
    split at parsed
    · cases parsed
    · rename_i nonempty
      cases parsed
      intro empty
      have nothing := congrArg String.toList empty
      rw [String.toList_ofList] at nothing
      rw [nothing] at nonempty
      exact nonempty rfl
  · cases parsed

theorem key_ne_empty_of_parseEntries {parts : List (List Char)}
    {entries : List (String × String)} (parsed : Binding.parseEntries parts = .ok entries) :
    ∀ entry ∈ entries, entry.1 ≠ "" := by
  induction parts generalizing entries with
  | nil =>
    cases parsed
    exact fun _ member => absurd member List.not_mem_nil
  | cons part rest ih =>
    unfold Binding.parseEntries at parsed
    simp only at parsed
    split at parsed
    · exact ih parsed
    · obtain ⟨pair, first, parsed⟩ := Text.exists_of_bind_eq_ok parsed
      obtain ⟨more, others, parsed⟩ := Text.exists_of_bind_eq_ok parsed
      cases parsed
      exact List.forall_mem_cons.mpr ⟨key_ne_empty_of_parseEntry first, ih others⟩

/-- The keys of an object literal are not empty. -/
theorem key_ne_empty {source : String} {entries : List (String × String)}
    (parsed : Binding.entriesOf source = .ok entries) : ∀ entry ∈ entries, entry.1 ≠ "" := by
  unfold Binding.entriesOf at parsed
  split at parsed
  · rename_i found literal
    cases parsed
    obtain ⟨parts, _, parsed⟩ := Text.exists_of_bind_eq_ok literal
    exact key_ne_empty_of_parseEntries parsed
  · cases parsed

theorem takeAttribute_subset (name : String) (attributes : List Attribute) :
    (takeAttribute name attributes).2 ⊆ attributes := by
  induction attributes with
  | nil => exact List.Subset.refl _
  | cons first rest ih =>
    obtain ⟨key, value⟩ := first
    unfold takeAttribute
    split
    · exact List.subset_cons_self _ _
    · exact List.cons_subset_cons _ ih

/-- The attributes of an attribute binding are those of its entries. -/
theorem steadyNames_attributeSteps {entries : List (String × String)}
    (named : ∀ entry ∈ entries, entry.1 ≠ "") (attributes : List Attribute) :
    SteadyNames (attributeSteps entries attributes).1 ∧
      (attributeSteps entries attributes).2 ⊆ attributes := by
  constructor
  · show SteadyNames (entries.map _)
    induction entries with
    | nil => exact .nil
    | cons entry rest ih =>
      rw [List.forall_mem_cons] at named
      exact (steadyNames_attribute named.1 _).append (ih named.2)
  · show entries.foldl _ attributes ⊆ attributes
    clear named
    induction entries generalizing attributes with
    | nil => exact List.Subset.refl _
    | cons entry rest ih => exact List.Subset.trans (ih _) (takeAttribute_subset _ _)

/-- **The attributes of an element with bindings** are the same in two runs that agree, and what is
left of the literal ones is among them. -/
theorem steadyNames_of_allBindingSteps {bindings : List Binding}
    {attributes left : List Attribute} {steps : List Step}
    (made : allBindingSteps bindings attributes = .ok (steps, left)) :
    SteadyNames steps ∧ left ⊆ attributes := by
  induction bindings generalizing attributes steps with
  | nil =>
    cases made
    exact ⟨.nil, List.Subset.refl _⟩
  | cons binding rest ih =>
    obtain ⟨own, remaining, more, first, others, rfl⟩ := allBindingSteps_cons made
    obtain ⟨later, fewer⟩ := ih others
    have own : SteadyNames own ∧ remaining ⊆ attributes := by
      obtain ⟨kind, source⟩ := binding
      rcases bindingSteps_cases first with ⟨step, _, rfl, stepped, rfl⟩ |
        ⟨step, _, rfl, stepped, rfl⟩ | ⟨entries, _, parsed, same⟩ | ⟨_, rfl, rfl⟩
      · obtain ⟨fixed, dynamic, rfl⟩ := exists_of_classStep stepped
        exact ⟨steadyNames_classes fixed dynamic, takeAttribute_subset _ _⟩
      · obtain ⟨fixed, dynamic, rfl⟩ := exists_of_styleStep stepped
        exact ⟨steadyNames_styles fixed dynamic, takeAttribute_subset _ _⟩
      · cases same
        exact steadyNames_attributeSteps (key_ne_empty parsed) attributes
      · exact ⟨.nil, List.Subset.refl _⟩
    exact ⟨own.1.append later, List.Subset.trans fewer own.2⟩

/-! ### Bindings -/

/-- **Steps that can stand between the tags of an element.** -/
def Inside (tag : String) (steps : List Step) : Prop :=
  Steady steps ∧ (isRawText tag = true → Silent steps)

theorem modular_inside (tag : String) : Modular (Inside tag) where
  nil := ⟨modular_steady.nil, fun _ => modular_silent.nil⟩
  merge inside := ⟨modular_steady.merge inside.1, fun raw => modular_silent.merge (inside.2 raw)⟩
  text value := ⟨modular_steady.text value, fun _ => modular_silent.text value⟩
  html value := ⟨modular_steady.html value, fun _ => modular_silent.html value⟩
  guarded condition _ inside :=
    ⟨modular_steady.guarded condition inside.1,
      fun raw => modular_silent.guarded condition (inside.2 raw)⟩
  repeated items alias? _ inside :=
    ⟨modular_steady.repeated items alias? inside.1,
      fun raw => modular_silent.repeated items alias? (inside.2 raw)⟩
  rescoped data _ inside :=
    ⟨modular_steady.rescoped data inside.1,
      fun raw => modular_silent.rescoped data (inside.2 raw)⟩

section Bodies

variable {property : List Step → Prop} {inner : List Tree → Checked Plan} {body : List Tree}

/-- **What bindings keep is kept by the step of a binding**, if it holds of the body. -/
theorem Modular.scopeStep (modular : Modular property) {binding : Binding} {step : Option Step}
    (made : (scopeStep inner binding body).result = .ok step)
    (inside : ∀ plan, (inner body).result = .ok plan → property plan) : property step.toList := by
  obtain ⟨kind, source⟩ := binding
  rcases scopeStep_cases made with ⟨plan, planned, bodied⟩ | ⟨_, rfl⟩ | ⟨_, rfl⟩ | ⟨_, rfl⟩
  · have kept := inside plan planned
    rcases bodied with ⟨_, rfl⟩ | ⟨_, rfl⟩ | ⟨iteration, _, _, rfl⟩
    · exact modular.guarded _ kept
    · exact modular.rescoped _ kept
    · exact modular.repeated _ _ kept
  · exact modular.text _
  · exact modular.html _
  · exact modular.nil

/-- What bindings keep is kept by the steps between the tags of an element. -/
theorem Modular.contentSteps (modular : Modular property) {tag : String} {bindings : List Binding}
    {steps : List Step} (made : (contentSteps inner tag bindings body).result = .ok steps)
    (inside : ∀ plan, (inner body).result = .ok plan → property plan) :
    ∃ content, steps = content ++ [.literal (tagEnd tag)] ∧ property content := by
  obtain ⟨content, replaced, made⟩ := result_bind made
  have between : property content := by
    unfold innerSteps at replaced
    split at replaced
    · obtain ⟨step, stepped, rfl⟩ := result_map replaced
      exact modular.scopeStep stepped inside
    · exact inside content replaced
  cases made
  refine ⟨_, rfl, ?_⟩
  split
  · exact modular.rescoped _ between
  · exact between

/-! ### Elements -/

theorem write_startSteps (run : Run) (tag : String) (steps : List Step) (left : List Attribute) :
    run.write (startSteps tag steps left) =
      "<" ++ tag ++ (run.write steps ++ attributesText left) ++
        if isVoid tag then " />" else ">" := by
  have literal : run.write (if left.isEmpty then [] else [.attributes (attributesText left)]) =
      attributesText left := by
    cases left with
    | nil => rw [List.isEmpty_nil, if_pos rfl, Run.write_nil]; rfl
    | cons first rest => rw [List.isEmpty_cons, if_neg Bool.false_ne_true, Run.write_attributes]
  rw [startSteps, List.cons_append, List.cons_append, ← List.singleton_append, Run.write_append,
    Run.write_append, Run.write_append, literal, Run.write_literal, Run.write_literal]
  simp only [String.append_assoc]

variable {tag : String} {steps content : List Step} {left : List Attribute}

theorem confinedAll_startSteps (confined : ConfinedAll (startSteps tag steps left)) :
    ConfinedAll steps := by
  rw [startSteps, confinedAll_append, List.cons_append, ← List.singleton_append,
    confinedAll_append, confinedAll_append] at confined
  exact confined.1.2.1

theorem agreeAll_startSteps {run other : Run}
    (agree : AgreeAll run other (startSteps tag steps left)) : AgreeAll run other steps := by
  rw [startSteps, agreeAll_append, List.cons_append, ← List.singleton_append, agreeAll_append,
    agreeAll_append] at agree
  exact agree.1.2.1

/-- The start tags of an element with bindings have the same names in two runs that agree. -/
theorem alikeNames_startSteps (names : SteadyNames steps)
    (readable : ∀ entry ∈ left, ReadableName entry.1) {run other : Run}
    (confined : ConfinedAll (startSteps tag steps left))
    (agree : AgreeAll run other (startSteps tag steps left)) :
    AlikeNames (run.write steps ++ attributesText left)
      (other.write steps ++ attributesText left) :=
  (names run other (confinedAll_startSteps confined) (agreeAll_startSteps agree)).append
    ⟨_, readsNames_attributesText readable, readsNames_attributesText readable⟩

/-- **A void element with bindings** writes alike in two runs that agree. -/
theorem steady_startSteps (void : isVoid tag = true) (good : ReadableTag tag)
    (names : SteadyNames steps) (readable : ∀ entry ∈ left, ReadableName entry.1) :
    Steady (startSteps tag steps left) := by
  intro run other confined agree
  rw [write_startSteps, write_startSteps, if_pos void]
  exact alike_voidTag good (alikeNames_startSteps names readable confined agree)

/-- **An element with bindings** writes alike in two runs that agree, if its content does. -/
theorem steady_element (ordinary : ¬ isVoid tag = true) (good : ReadableTag tag)
    (names : SteadyNames steps) (readable : ∀ entry ∈ left, ReadableName entry.1)
    (inside : Inside tag content) :
    Steady (startSteps tag steps left ++ (content ++ [.literal (tagEnd tag)])) := by
  intro run other confined agree
  rw [confinedAll_append, confinedAll_append] at confined
  rw [agreeAll_append, agreeAll_append] at agree
  have written : ∀ run : Run,
      run.write (startSteps tag steps left ++ (content ++ [.literal (tagEnd tag)])) =
        "<" ++ tag ++ (run.write steps ++ attributesText left) ++ ">" ++ run.write content ++
          tagEnd tag := by
    intro run
    rw [Run.write_append, Run.write_append, Run.write_literal, write_startSteps, if_neg ordinary]
    simp only [String.append_assoc]
  rw [written, written]
  refine alike_element good (alikeNames_startSteps names readable confined.1 agree.1)
    (inside.1 run other confined.2.1 agree.2.1) fun raw => ?_
  exact ⟨inside.2 raw run confined.2.1, inside.2 raw other confined.2.1⟩

/-- **An element without bindings** writes alike in two runs that agree, if its content does. -/
theorem steady_literalTag {attributes : List Attribute} (ordinary : ¬ isVoid tag = true)
    (good : ReadableTag tag) (readable : ∀ entry ∈ attributes, ReadableName entry.1)
    (inside : Inside tag content) :
    Steady ([.literal (literalTag tag attributes)] ++ (content ++ [.literal (tagEnd tag)])) := by
  intro run other confined agree
  rw [confinedAll_append, confinedAll_append] at confined
  rw [agreeAll_append, agreeAll_append] at agree
  have written : ∀ run : Run,
      run.write ([.literal (literalTag tag attributes)] ++
        (content ++ [.literal (tagEnd tag)])) =
        "<" ++ tag ++ attributesText attributes ++ ">" ++ run.write content ++ tagEnd tag := by
    intro run
    rw [Run.write_append, Run.write_append, Run.write_literal, Run.write_literal, literalTag,
      tagStart, if_neg ordinary]
    simp only [String.append_assoc]
  rw [written, written]
  have names := readsNames_attributesText readable
  refine alike_element good ⟨_, names, names⟩ (inside.1 run other confined.2.1 agree.2.1)
    fun raw => ?_
  exact ⟨inside.2 raw run confined.2.1, inside.2 raw other confined.2.1⟩

/-- The steps of an element with bindings write alike, together with the content that follows them
if they do not contain it. -/
theorem steady_elementPlan {source : String} {attributes : List Attribute} {element : ElementPlan}
    (made : (elementPlan inner tag source attributes body).result = .ok element)
    (good : ReadableTag tag) (readable : ∀ entry ∈ attributes, ReadableName entry.1)
    (inside : ∀ plan, (inner body).result = .ok plan → Inside tag plan) :
    (element.isComplete = true → Steady element.steps) ∧
      (¬ element.isComplete = true → ∀ content, Inside tag content →
        Steady (element.steps ++ (content ++ [.literal (tagEnd tag)]))) := by
  obtain ⟨bindings, parsed, made⟩ := result_bind made
  obtain ⟨⟨steps, left⟩, attributed, made⟩ := result_bind made
  have attributed : allBindingSteps bindings attributes = .ok (steps, left) := attributed
  obtain ⟨names, fewer⟩ := steadyNames_of_allBindingSteps attributed
  have remaining : ∀ entry ∈ left, ReadableName entry.1 := fun entry member =>
    readable entry (fewer member)
  simp only at made
  split at made
  · cases made
    exact ⟨fun void => steady_startSteps void good names remaining,
      fun ordinary content between => steady_element ordinary good names remaining between⟩
  · obtain ⟨content, between, made⟩ := result_ite made
    have whole : Steady (startSteps tag steps left ++ content) := by
      by_cases void : isVoid tag = true
      · rw [if_pos void] at between
        cases between
        rw [List.append_nil]
        exact steady_startSteps void good names remaining
      · rw [if_neg void] at between
        obtain ⟨content, rfl, fits⟩ := (modular_inside tag).contentSteps between inside
        exact steady_element void good names remaining fits
    split at made
    · cases made
      exact ⟨fun _ => modular_steady.guarded _ whole, fun unfinished => absurd rfl unfinished⟩
    · cases made
      exact ⟨fun _ => whole, fun unfinished => absurd rfl unfinished⟩

end Bodies

/-! ### Forests -/

/-- **The steps of a node that has been read** write alike in two runs that agree. -/
theorem steady_nodeSteps {config : Config} {inner : List Tree → Checked Plan}
    {children : Checked (List Step)} {first : Tree} {steps : List Step}
    (made : (nodeSteps config inner children first).result = .ok steps) (readable : first.Readable)
    (inside : ∀ plan, (inner first.children).result = .ok plan →
      Steady plan ∧ (first.children = [] → Silent plan))
    (under : ∀ steps, children.result = .ok steps →
      Steady steps ∧ (first.children = [] → Silent steps)) : Steady steps := by
  obtain ⟨id, content, descendants⟩ := first
  obtain ⟨good, childless⟩ := readable
  cases content with
  | text text =>
    cases made
    refine steady_of_write (fun run => Run.write_escapedText run _) (reads_of_not_mem ?_)
    rw [escape, String.toList_ofList]
    exact (not_mem_escape _).1
  | raw tag attributes content =>
    cases made
    obtain ⟨named, readable, raw, absent⟩ := good
    exact steady_of_write (fun run => Run.write_raw run _)
      (reads_rawElement named raw (readsNames_attributesText readable) absent)
  | declaration text =>
    cases made
    exact steady_of_write (fun run => Run.write_literal run _)
      (constructs_declarationText good).reads
  | comment text =>
    rw [nodeSteps] at made
    split at made
    · cases made
      exact steady_of_write (fun run => Run.write_literal run _) (constructs_commentText good).reads
    · cases made
      exact modular_steady.nil
  | element tag attributes =>
    obtain ⟨named, readable⟩ := good
    have fits : ∀ {steps : List Step}, Steady steps ∧ (descendants = [] → Silent steps) →
        Inside tag steps := fun both =>
      ⟨both.1, fun raw => both.2 (childless tag attributes rfl raw)⟩
    rw [nodeSteps] at made
    split at made
    · by_cases void : isVoid tag = true
      · rw [if_pos void] at made
        cases made
        refine steady_of_write (fun run => ?_)
          (reads_voidTag named (readsNames_attributesText readable))
        rw [Run.write_literal, literalTag, tagStart, if_pos void]
      · rw [if_neg void] at made
        obtain ⟨opening, others, opened, rest, rfl⟩ := result_both made
        obtain ⟨content, closing, between, closed, rfl⟩ := result_both rest
        cases opened
        cases closed
        exact steady_literalTag void named readable (fits (under content between))
    · obtain ⟨element, planned, made⟩ := result_bind made
      obtain ⟨complete, unfinished⟩ := steady_elementPlan planned named
        (fun entry member => readable entry (List.mem_of_mem_filter member))
        fun plan compiled => fits (inside plan compiled)
      by_cases whole : element.isComplete = true
      · rw [if_pos whole] at made
        cases made
        exact complete whole
      · rw [if_neg whole] at made
        obtain ⟨opening, others, opened, rest, rfl⟩ := result_both made
        obtain ⟨content, closing, between, closed, rfl⟩ := result_both rest
        cases opened
        cases closed
        exact unfinished whole content (fits (under content between))

/-- **The steps of a forest that has been read** write alike in two runs that agree. -/
theorem steady_assemble {config : Config} {nodes : List Tree} {steps : List Step}
    (made : (assemble config nodes).result = .ok steps) (readable : ReadableAll nodes) :
    Steady steps := by
  -- without nodes there are no steps, and those of an inner forest are joined in its plan
  have silent : ∀ {body : List Tree} {steps : List Step},
      (assemble config body).result = .ok steps → body = [] → Silent steps := by
    rintro body steps made rfl
    rw [assemble_nil] at made
    cases made
    exact modular_silent.nil
  have plans : ∀ {body : List Tree}, (∀ steps, (assemble config body).result = .ok steps →
      Steady steps) → ∀ plan, (assembled config body).result = .ok plan →
      Steady plan ∧ (body = [] → Silent plan) := by
    intro body below plan planned
    obtain ⟨inner, found, rfl⟩ := result_map planned
    exact ⟨modular_steady.merge (below inner found),
      fun empty => modular_silent.merge (silent found empty)⟩
  refine assemble_induction (motive := fun nodes steps => ReadableAll nodes → Steady steps)
    ?nil ?node ?unclosed ?block made readable
  case nil => exact fun _ => modular_steady.nil
  case node =>
    intro first rest own more word made below later readable
    obtain ⟨node, inside, others⟩ := readableAll_cons.mp readable
    have steady := fun steps found => below steps found inside
    exact (steady_nodeSteps made node (plans steady)
      fun steps found => ⟨steady steps found, silent found⟩).append (later others)
  case unclosed =>
    intro start binding rest steps opening unclosed later readable
    exact later (readableAll_cons.mp readable).2.2
  case block =>
    intro start finish binding body after step more opening balanced closing made inside later
      readable
    obtain ⟨within, last⟩ := readableAll_append.mp (readableAll_cons.mp readable).2.2
    refine (modular_steady.scopeStep made ?_).append (later (readableAll_cons.mp last).2.2)
    exact fun plan planned => (plans (fun steps found => inside steps found within) plan planned).1

/-! ### Templates -/

/-- **What a compiled template writes in two runs that agree has the same structure**, whatever
strings the data holds: both outputs are accepted, and their trees are the same apart from text,
attribute values and raw content. -/
theorem render_sameOutline {evaluator : Evaluator} {config : Config} {markup : String}
    {template : Template} (compiled : (ofMarkup evaluator config markup).result = .ok template)
    (confined : ConfinedAll template.plan) (first second : Evaluator) (data other : Value)
    (agree : AgreeAll ((template.withEvaluator first).run data)
      ((template.withEvaluator second).run other) template.plan) :
    let left := ((template.withEvaluator first).render data).markup
    let right := ((template.withEvaluator second).render other).markup
    Accepted left ∧ Accepted right ∧ ∀ fragment counterpart, parse left = .ok fragment →
      parse right = .ok counterpart →
        outlineAll fragment.rootTrees = outlineAll counterpart.rootTrees := by
  obtain ⟨fragment, steps, parsed, made, plan, rfl, _⟩ := exists_steps_of_ofMarkup compiled
  have steady : Steady template.plan := by
    rw [plan]
    exact modular_steady.merge (steady_assemble made (readableAll_of_parse parsed))
  obtain ⟨marks, readsLeft, readsRight⟩ := steady _ _ confined agree
  obtain ⟨acceptedLeft, outlineLeft⟩ := parse_of_reads readsLeft
  obtain ⟨acceptedRight, outlineRight⟩ := parse_of_reads readsRight
  refine ⟨acceptedLeft, acceptedRight, fun fragment counterpart parsed also => ?_⟩
  exact (outlineLeft fragment parsed).trans (outlineRight counterpart also).symm

/-- A list of entries with a title, an optional note and a comment. -/
def notedList : String :=
  "<ul data-bind=\"foreach: entries\"><li data-bind=\"attr: \x7btitle: a\x7d, text: a\"></li>" ++
    "<!-- ko if: b --><p data-bind=\"text: b\"></p><!-- /ko --></ul><!-- end -->"

/-- An object with a list of entries, each with a title and a note. -/
def notedEntries (entries : List (String × String)) : Value :=
  .object 0 [("entries", .array 1 (entries.map fun (title, note) =>
    .object 2 [("a", .string title), ("b", .string note)]))]

/-- An evaluator whose expressions are names of fields. -/
def fieldEvaluator : Evaluator := fun expression context =>
  match context.data with
  | .object _ entries => .ok ((entries.lookup expression.source).getD .undefined)
  | _ => .ok .undefined

/-- What the titles and notes of a list say does not change its tree. -/
theorem render_sameOutline_notedList : ∃ template,
    (ofMarkup fieldEvaluator {} notedList).result = .ok template ∧
    ∀ left right,
      parse ((template.withEvaluator fieldEvaluator).render
        (notedEntries [("<b>\"x\"", "--><i"), ("</li>", "")])).markup = .ok left →
      parse ((template.withEvaluator fieldEvaluator).render
        (notedEntries [("plain", "note"), ("", "")])).markup = .ok right →
      outlineAll left.rootTrees = outlineAll right.rootTrees := by
  have succeeds : (match (ofMarkup fieldEvaluator {} notedList).result with
      | .ok template => decide (ConfinedAll template.plan ∧
          AgreeAll ((template.withEvaluator fieldEvaluator).run
              (notedEntries [("<b>\"x\"", "--><i"), ("</li>", "")]))
            ((template.withEvaluator fieldEvaluator).run
              (notedEntries [("plain", "note"), ("", "")])) template.plan)
      | .error _ => false) = true := by
    -- The plan of the block is compiled inside of that of the list, which is inside of the roots.
    simp only [ofMarkup, ofFragment, ofNodes, ofTrees, planOf, compile_eq]
    unfold compiledInside
    simp only [compile_eq]
    unfold compiledInside
    simp only [compile_eq]
    decide +kernel
  split at succeeds
  · rename_i template compiled
    obtain ⟨confined, agree⟩ := of_decide_eq_true succeeds
    obtain ⟨_, _, same⟩ :=
      render_sameOutline compiled confined fieldEvaluator fieldEvaluator _ _ agree
    exact ⟨template, compiled, same⟩
  · cases succeeds

end DataBind.Template
