/-
**Rendering is interpreting the forest.**

What a compiled template writes can be said without a plan, by recursion over the trees: every
node is written in its place, and a binding decides in which contexts its body is written.

* `interpretAll`: what a forest writes in a context, by recursion over its trees;
* `renderAll_merge`: joining adjacent markup does not change what is written;
* `renderAll_dynamicAttributes`, `renderAll_scopeStep`, `renderAll_elementPlan`: what the steps of
  attributes, of a binding with a body and of an element write;
* `renderAll_assemble`: the steps of a forest write what interpreting it writes;
* `render_eq_interpretAll`: so does a compiled template, for every evaluator and all data;
* `renderAll_of_names`: where nothing but names is asked, looking them up gives the same output.
-/

import DataBind.Proofs.Template.Assembly
import DataBind.Proofs.Template.Consulted
import DataBind.Proofs.Template.Negation
import DataBind.CommandLine.Run

namespace DataBind.Template

open Markup Markup.Tree Block Checked

/-! ### The interpreter -/

/-- The class attribute that a binding makes, beside the classes that stand in the markup. -/
def classAttribute (runtime : Runtime) (context : Context) (source literal : String) : Output :=
  let fixed := Text.distinct (Text.words literal)
  let source := Text.trimmed source
  match source.toList with
  | '\x7b' :: _ =>
    match Binding.entriesOf source with
    | .error _ => .empty
    | .ok entries =>
      let dynamic := expressionsOf entries
      classesOutput runtime context (fixed.filter fun name => !mentions dynamic name)
        (.conditional dynamic)
  | _ => classesOutput runtime context fixed (.expression (Expression.parse source))

/-- The style attribute that a binding makes, beside the declarations that stand in the markup. -/
def styleAttribute (runtime : Runtime) (context : Context) (source literal : String) : Output :=
  match Binding.entriesOf source with
  | .error _ => .empty
  | .ok entries =>
    let dynamic :=
      entries.map fun (key, value) => (Style.propertyName key, Expression.parse value)
    stylesOutput runtime context
      ((Style.parseDeclarations literal).filter fun (property, _) =>
        !dynamic.any fun (name, _) => name == property) dynamic

/-- The attributes of an element: those that its bindings make, in the order of the bindings, and
then those in the markup that no binding has taken over. -/
def dynamicAttributes (runtime : Runtime) (context : Context) :
    List Binding → List Attribute → Output
  | [], left => .write (attributesText left)
  | binding :: rest, attributes =>
    match binding.kind with
    | .classes =>
      let (literal, left) := takeAttribute "class" attributes
      classAttribute runtime context binding.source (literal.getD "") ++
        dynamicAttributes runtime context rest left
    | .styles =>
      let (literal, left) := takeAttribute "style" attributes
      styleAttribute runtime context binding.source (literal.getD "") ++
        dynamicAttributes runtime context rest left
    | .attributes =>
      match Binding.entriesOf binding.source with
      | .error _ => .empty
      | .ok entries =>
        Output.join (entries.map fun (name, source) =>
            runtime.withValue context (Expression.parse source) (attributeOutput name)) ++
          dynamicAttributes runtime context rest
            (entries.foldl (fun left (name, _) => (takeAttribute name left).2) attributes)
    | _ => dynamicAttributes runtime context rest attributes

/-- What a binding writes in a context, given what its body writes in any context. -/
def underBinding (runtime : Runtime) (binding : Binding) (body : Context → Output)
    (context : Context) : Output :=
  match binding.kind with
  | .showIf | .showIfNot =>
    runtime.withValue context binding.expression fun value =>
      if value.isTruthy then body context else .empty
  | .forEach =>
    match Binding.parseIteration binding.source with
    | .error _ => .empty
    | .ok iteration =>
      runtime.withValue context (Expression.parse iteration.items) fun value =>
        Output.join ((itemsOf value).mapIdx fun index item =>
          body (context.deriveForIteration item index iteration.alias?))
  | .scope =>
    runtime.withValue context binding.expression fun value => body (context.deriveFor value)
  | .text => runtime.withValue context binding.expression textOutput
  | .html => runtime.withValue context binding.expression (htmlOutput binding.expression.source)
  | .attributes | .classes | .styles => .empty

/-- What is written under the first binding of a kind, if there is one. -/
def underFirst (runtime : Runtime) (bindings : List Binding) (applies : Binding.Kind → Bool)
    (body : Context → Output) : Context → Output :=
  match bindings.find? fun binding => applies binding.kind with
  | some binding => underBinding runtime binding body
  | none => body

/-- An element with bindings, given what its children write in any context. -/
def boundElement (runtime : Runtime) (tag source : String) (attributes : List Attribute)
    (children : Context → Output) (context : Context) : Output :=
  match (Binding.parseContainer source tag).result with
  | .error _ => .empty
  | .ok bindings =>
    let replaced := underFirst runtime bindings
      (fun kind => kind == .forEach || kind == .text || kind == .html) children
    let content := underFirst runtime bindings (fun kind => kind == .scope) replaced
    underFirst runtime bindings (fun kind => kind == .showIf || kind == .showIfNot)
      (fun context =>
        .write ("<" ++ tag) ++ dynamicAttributes runtime context bindings attributes ++
          if isVoid tag then .write " />"
          else .write ">" ++ content context ++ .write (tagEnd tag)) context

/-- A node that is no start marker, given what its children write in any context. -/
def interpretNode (runtime : Runtime) (below : Context → Output) (context : Context) :
    Tree → Output
  | .node _ (.text text) _ => .write (escape text)
  | .node _ (.raw tag attributes content) _ => .write (rawText tag attributes content)
  | .node _ (.declaration text) _ => .write (declarationText text)
  | .node _ (.comment text) _ =>
    match Binding.parseDirective text runtime.config with
    | none => .write (commentText text)
    | some _ => .empty
  | .node _ (.element tag attributes) _ =>
    match attributes.lookup runtime.config.bindingAttribute with
    | none =>
      if isVoid tag then .write (tagStart tag attributes ++ " />")
      else .write (tagStart tag attributes ++ ">") ++ below context ++ .write (tagEnd tag)
    | some source =>
      boundElement runtime tag source
        (attributes.filter fun (name, _) => name != runtime.config.bindingAttribute) below context

/-- What a forest writes in a context: a start marker writes the siblings up to its end marker
under its binding, and every other node writes itself. -/
def interpretAll (runtime : Runtime) (nodes : List Tree) (context : Context) : Output :=
  match nodes with
  | [] => .empty
  | first :: rest =>
    have := weightAll_children_lt first rest
    have := weightAll_rest_lt first rest
    match directive? runtime.config first with
    | some (.opening binding) =>
      match split : splitBlock? runtime.config 0 rest with
      | none => interpretAll runtime rest context
      | some (body, finish, after) =>
        have := Nat.lt_trans (weightAll_lt_of_splitBlock? split).1 (weightAll_rest_lt first rest)
        have := Nat.lt_trans (weightAll_lt_of_splitBlock? split).2 (weightAll_rest_lt first rest)
        underBinding runtime binding (fun context => interpretAll runtime body context) context ++
          interpretAll runtime after context
    | _ =>
      interpretNode runtime (fun context => interpretAll runtime first.children context) context
          first ++
        interpretAll runtime rest context
termination_by weightAll nodes

/-! ### Joined markup -/

theorem write_append (first second : String) :
    Output.write (first ++ second) = .write first ++ .write second := by
  rw [Output.append_def]
  rfl

theorem renderAll_singleton (runtime : Runtime) (context : Context) (step : Step) :
    renderAll runtime context [step] = renderStep runtime context step := by
  rw [renderAll, renderAll, Output.append_empty]

theorem renderAll_pushLiteral (runtime : Runtime) (context : Context) (draft : Draft)
    (markup : String) :
    renderAll runtime context (draft.pushLiteral markup).plan =
      renderAll runtime context draft.plan ++ .write markup := by
  obtain ⟨steps⟩ := draft
  have added : ∀ steps : List Step,
      renderAll runtime context (Step.literal markup :: steps).reverse =
        renderAll runtime context steps.reverse ++ .write markup := by
    intro steps
    rw [List.reverse_cons, renderAll_append, renderAll_singleton, renderStep]
  cases steps with
  | nil => exact added []
  | cons step rest =>
    cases step with
    | literal last =>
      show renderAll runtime context (Step.literal (last ++ markup) :: rest).reverse =
        renderAll runtime context (Step.literal last :: rest).reverse ++ _
      rw [List.reverse_cons, List.reverse_cons, renderAll_append, renderAll_append,
        renderAll_singleton, renderAll_singleton, renderStep, renderStep, write_append,
        Output.append_assoc]
    | _ => exact added _

theorem renderAll_extend (runtime : Runtime) (context : Context) (draft : Draft)
    (steps : List Step) :
    renderAll runtime context (draft.extend steps).plan =
      renderAll runtime context draft.plan ++ renderAll runtime context steps := by
  induction steps generalizing draft with
  | nil => rw [Draft.extend_nil, renderAll, Output.append_empty]
  | cons step rest ih =>
    have pushed : renderAll runtime context (draft.push step).plan =
        renderAll runtime context draft.plan ++ renderStep runtime context step := by
      show renderAll runtime context (step :: draft.reversed).reverse = _
      rw [List.reverse_cons, renderAll_append, renderAll_singleton]
      rfl
    rw [renderAll, ← Output.append_assoc]
    cases step with
    | literal markup =>
      refine (ih (draft.pushLiteral markup)).trans ?_
      rw [renderAll_pushLiteral, renderStep]
    | _ => exact (ih (draft.push _)).trans (by rw [pushed])

/-- **Joining adjacent markup does not change what is written.** -/
theorem renderAll_merge (runtime : Runtime) (context : Context) (steps : List Step) :
    renderAll runtime context (merge steps) = renderAll runtime context steps := by
  rw [merge, renderAll_extend]
  show renderAll runtime context [] ++ _ = _
  rw [renderAll, Output.empty_append]

/-! ### Attributes -/

theorem renderStep_classStep {runtime : Runtime} {source literal : String} {step : Step}
    (made : classStep source literal = .ok step) (context : Context) :
    renderStep runtime context step = classAttribute runtime context source literal := by
  unfold classStep at made
  simp only at made
  split at made
  · rename_i rest object
    unfold classAttribute
    simp only [object]
    cases entries : Binding.entriesOf (Text.trimmed source) with
    | error error =>
      rw [entries] at made
      cases made
    | ok found =>
      rw [entries] at made
      cases made
      rw [renderStep]
  · cases made
    rw [renderStep]
    unfold classAttribute
    simp only

theorem renderStep_styleStep {runtime : Runtime} {source literal : String} {step : Step}
    (made : styleStep source literal = .ok step) (context : Context) :
    renderStep runtime context step = styleAttribute runtime context source literal := by
  unfold styleStep at made
  unfold styleAttribute
  cases entries : Binding.entriesOf source with
  | error error =>
    rw [entries] at made
    cases made
  | ok found =>
    rw [entries] at made
    cases made
    rw [renderStep]

theorem foldl_append (outputs : List Output) (first : Output) :
    outputs.foldl Output.append first = first ++ Output.join outputs := by
  induction outputs generalizing first with
  | nil => exact (Output.append_empty first).symm
  | cons output rest ih =>
    show rest.foldl Output.append (first ++ output) =
      first ++ rest.foldl Output.append (Output.empty ++ output)
    rw [ih, ih, Output.empty_append, Output.append_assoc]

theorem join_cons (output : Output) (rest : List Output) :
    Output.join (output :: rest) = output ++ Output.join rest := by
  rw [← foldl_append]
  show rest.foldl Output.append (Output.empty ++ output) = _
  rw [Output.empty_append]

theorem renderAll_eq_join (runtime : Runtime) (context : Context) (steps : List Step) :
    renderAll runtime context steps = Output.join (steps.map (renderStep runtime context)) := by
  induction steps with
  | nil => rw [renderAll]; rfl
  | cons step rest ih => rw [renderAll, ih, List.map_cons, join_cons]

/-- **The steps of the bindings of an element** write its attributes. -/
theorem renderAll_dynamicAttributes {runtime : Runtime} {bindings : List Binding}
    {attributes left : List Attribute} {steps : List Step}
    (made : allBindingSteps bindings attributes = .ok (steps, left)) (context : Context) :
    renderAll runtime context steps ++ .write (attributesText left) =
      dynamicAttributes runtime context bindings attributes := by
  induction bindings generalizing attributes steps with
  | nil =>
    cases made
    rw [renderAll, Output.empty_append, dynamicAttributes]
  | cons binding rest ih =>
    obtain ⟨own, remaining, more, first, others, rfl⟩ := allBindingSteps_cons made
    obtain ⟨kind, source⟩ := binding
    rw [renderAll_append, Output.append_assoc, ih others]
    rcases bindingSteps_cases first with ⟨step, rfl, rfl, stepped, rfl⟩ |
      ⟨step, rfl, rfl, stepped, rfl⟩ | ⟨entries, rfl, parsed, same⟩ |
      ⟨⟨noClass, noStyle, noAttributes⟩, rfl, rfl⟩
    · rw [renderAll_singleton, renderStep_classStep stepped, dynamicAttributes]
    · rw [renderAll_singleton, renderStep_styleStep stepped, dynamicAttributes]
    · cases same
      rw [renderAll_eq_join, List.map_map, dynamicAttributes]
      simp only [parsed]
      rfl
    · rw [renderAll, Output.empty_append]
      cases kind with
      | classes => exact absurd rfl noClass
      | styles => exact absurd rfl noStyle
      | attributes => exact absurd rfl noAttributes
      | showIf => rfl
      | showIfNot => rfl
      | forEach => rfl
      | scope => rfl
      | text => rfl
      | html => rfl

/-! ### Bindings and elements -/

section Bodies

variable {runtime : Runtime} {inner : List Tree → Checked Plan} {body : List Tree}
  {below : Context → Output}

/-- **The step of a binding with a body** writes the body under the binding. -/
theorem renderAll_scopeStep {binding : Binding} {step : Option Step}
    (made : (scopeStep inner binding body).result = .ok step)
    (inside : ∀ plan, (inner body).result = .ok plan →
      ∀ context, renderAll runtime context plan = below context) (context : Context) :
    renderAll runtime context step.toList = underBinding runtime binding below context := by
  obtain ⟨kind, source⟩ := binding
  rcases scopeStep_cases made with ⟨plan, planned, bodied⟩ | ⟨rfl, rfl⟩ | ⟨rfl, rfl⟩ |
    ⟨onlyAttributes, rfl⟩
  · have same := inside plan planned
    rcases bodied with ⟨rfl | rfl, rfl⟩ | ⟨rfl, rfl⟩ | ⟨iteration, rfl, parsed, rfl⟩
    · rw [Option.toList_some, renderAll_singleton, renderStep, underBinding]
      simp only [same]
    · rw [Option.toList_some, renderAll_singleton, renderStep, underBinding]
      simp only [same]
    · rw [Option.toList_some, renderAll_singleton, renderStep, underBinding]
      simp only [same]
    · rw [Option.toList_some, renderAll_singleton, renderStep, underBinding]
      simp only [same, parsed]
  · exact renderAll_singleton runtime context _
  · exact renderAll_singleton runtime context _
  · rcases onlyAttributes with rfl | rfl | rfl
    · exact renderAll.eq_1 runtime context
    · exact renderAll.eq_1 runtime context
    · exact renderAll.eq_1 runtime context

/-- A start tag writes the attributes of its steps, and then those that are left. -/
theorem renderAll_startTag (runtime : Runtime) (context : Context) (tag : String)
    (steps : List Step) (left : List Attribute) :
    renderAll runtime context (startSteps tag steps left) =
      .write ("<" ++ tag) ++ (renderAll runtime context steps ++ .write (attributesText left)) ++
        .write (if isVoid tag then " />" else ">") := by
  have literal : renderAll runtime context
      (if left.isEmpty then [] else [Step.attributes (attributesText left)]) =
      .write (attributesText left) := by
    cases left with
    | nil => rw [List.isEmpty_nil, if_pos rfl, renderAll]; rfl
    | cons first rest =>
      rw [List.isEmpty_cons, if_neg Bool.false_ne_true, renderAll_singleton, renderStep]
  rw [startSteps, List.cons_append, List.cons_append, renderAll, renderAll_append,
    renderAll_append, literal, renderAll_singleton, renderStep, renderStep]
  simp only [Output.append_assoc]

/-- The start tag of an element with bindings. -/
theorem renderAll_startSteps {bindings : List Binding} {attributes left : List Attribute}
    {steps : List Step} (made : allBindingSteps bindings attributes = .ok (steps, left))
    (tag : String) (context : Context) :
    renderAll runtime context (startSteps tag steps left) =
      .write ("<" ++ tag) ++ dynamicAttributes runtime context bindings attributes ++
        .write (if isVoid tag then " />" else ">") := by
  rw [renderAll_startTag, renderAll_dynamicAttributes made]

/-- The first condition among the bindings is that of the first binding that shows or hides. -/
theorem findSome?_condition (bindings : List Binding) :
    bindings.findSome? Binding.condition? =
      (bindings.find? fun binding =>
        binding.kind == .showIf || binding.kind == .showIfNot).map Binding.expression := by
  induction bindings with
  | nil => rfl
  | cons binding rest ih =>
    obtain ⟨kind, source⟩ := binding
    rw [List.findSome?_cons, List.find?_cons, ih]
    cases kind <;> rfl

/-- What is between the tags of an element, under the binding that opens a scope. -/
theorem renderAll_contentSteps {tag : String} {bindings : List Binding} {steps : List Step}
    (made : (contentSteps inner tag bindings body).result = .ok steps)
    (inside : ∀ plan, (inner body).result = .ok plan →
      ∀ context, renderAll runtime context plan = below context) (context : Context) :
    renderAll runtime context steps =
      underFirst runtime bindings (fun kind => kind == .scope)
        (underFirst runtime bindings
          (fun kind => kind == .forEach || kind == .text || kind == .html) below) context ++
        .write (tagEnd tag) := by
  obtain ⟨content, replaced, made⟩ := result_bind made
  have between : ∀ context, renderAll runtime context content = underFirst runtime bindings
      (fun kind => kind == .forEach || kind == .text || kind == .html) below context := by
    intro context
    unfold innerSteps contentBinding? at replaced
    unfold underFirst
    split at replaced
    · rename_i binding found
      obtain ⟨step, stepped, rfl⟩ := result_map replaced
      rw [found]
      exact renderAll_scopeStep stepped inside context
    · rename_i missing
      rw [missing]
      exact inside content replaced context
  cases made
  rw [renderAll_append, renderAll_singleton, renderStep]
  congr 1
  cases found : bindings.find? fun binding => binding.kind == .scope with
  | none =>
    rw [underFirst, found]
    exact between context
  | some binding =>
    have kind : binding.kind = .scope := by simpa using List.find?_some found
    rw [underFirst, found]
    simp only
    rw [renderAll_singleton, renderStep, underBinding, kind]
    simp only [between]

/-- The start tag of an element and what comes after it. -/
theorem renderAll_tag {bindings : List Binding} {attributes left : List Attribute}
    {steps : List Step} (made : allBindingSteps bindings attributes = .ok (steps, left))
    (tag : String) (content : Output) (context : Context) :
    renderAll runtime context (startSteps tag steps left) ++
        (if isVoid tag then .empty else content ++ .write (tagEnd tag)) =
      .write ("<" ++ tag) ++ dynamicAttributes runtime context bindings attributes ++
        if isVoid tag then .write " />" else .write ">" ++ content ++ .write (tagEnd tag) := by
  rw [renderAll_startSteps made]
  by_cases void : isVoid tag = true
  · simp only [if_pos void, Output.append_empty]
  · simp only [if_neg void, Output.append_assoc]

/-- **The steps of an element with bindings** write the element. -/
theorem renderAll_elementPlan {tag source : String} {attributes : List Attribute}
    {element : ElementPlan}
    (made : (elementPlan inner tag source attributes body).result = .ok element)
    (inside : ∀ plan, (inner body).result = .ok plan →
      ∀ context, renderAll runtime context plan = below context) (context : Context) :
    renderAll runtime context element.steps ++
        (if element.isComplete then .empty else below context ++ .write (tagEnd tag)) =
      boundElement runtime tag source attributes below context := by
  obtain ⟨bindings, parsed, made⟩ := result_bind made
  obtain ⟨⟨steps, left⟩, attributed, made⟩ := result_bind made
  have attributed : allBindingSteps bindings attributes = .ok (steps, left) := attributed
  rw [boundElement, parsed]
  simp only [findSome?_condition] at made ⊢
  split at made
  · -- no binding but of attributes: the children follow in the same walk
    rename_i plain
    rw [Bool.and_eq_true, Bool.and_eq_true, Option.isNone_iff_eq_none, Option.map_eq_none_iff,
      Bool.not_eq_true', List.any_eq_false, contentBinding?, Option.isNone_iff_eq_none] at plain
    obtain ⟨⟨unconditional, unscoped⟩, kept⟩ := plain
    cases made
    have scopeless : (bindings.find? fun binding => binding.kind == .scope) = none :=
      List.find?_eq_none.mpr unscoped
    rw [underFirst, unconditional, underFirst, scopeless, underFirst, kept]
    exact renderAll_tag attributed tag _ context
  · obtain ⟨content, between, made⟩ := result_ite made
    have whole : ∀ context, renderAll runtime context (startSteps tag steps left ++ content) =
        .write ("<" ++ tag) ++ dynamicAttributes runtime context bindings attributes ++
          if isVoid tag then .write " />"
          else .write ">" ++ underFirst runtime bindings (fun kind => kind == .scope)
            (underFirst runtime bindings
              (fun kind => kind == .forEach || kind == .text || kind == .html) below) context ++
            .write (tagEnd tag) := by
      intro context
      rw [renderAll_append, ← renderAll_tag attributed]
      congr 1
      by_cases void : isVoid tag = true
      · rw [if_pos void] at between ⊢
        cases between
        rw [renderAll]
      · rw [if_neg void] at between ⊢
        exact renderAll_contentSteps between inside context
    cases condition : bindings.find? fun binding =>
        binding.kind == .showIf || binding.kind == .showIfNot with
    | none =>
      rw [condition] at made
      cases made
      rw [underFirst, condition, if_pos rfl, Output.append_empty]
      exact whole context
    | some binding =>
      have kind : binding.kind = .showIf ∨ binding.kind = .showIfNot := by
        simpa using List.find?_some condition
      rw [condition] at made
      cases made
      rw [underFirst, condition, if_pos rfl, Output.append_empty, renderAll_singleton, renderStep]
      rcases kind with shown | hidden
      · simp only [underBinding, shown, whole]
      · simp only [underBinding, hidden, whole]

end Bodies

/-! ### Forests -/

@[simp] theorem interpretAll_nil (runtime : Runtime) (context : Context) :
    interpretAll runtime [] context = .empty := by
  rw [interpretAll]

/-- A node that is no start marker writes itself. -/
theorem interpretAll_cons {runtime : Runtime} {first : Tree}
    (word : ∀ binding, directive? runtime.config first ≠ some (.opening binding))
    (rest : List Tree) (context : Context) :
    interpretAll runtime (first :: rest) context =
      interpretNode runtime (interpretAll runtime first.children) context first ++
        interpretAll runtime rest context := by
  rw [interpretAll]
  split
  · rename_i binding opening
    exact absurd opening (word binding)
  · rfl

/-- A start marker without an end marker writes nothing. -/
theorem interpretAll_unclosed {runtime : Runtime} {start : Tree} {binding : Binding}
    {rest : List Tree} (opening : directive? runtime.config start = some (.opening binding))
    (unclosed : splitBlock? runtime.config 0 rest = none) (context : Context) :
    interpretAll runtime (start :: rest) context = interpretAll runtime rest context := by
  rw [interpretAll]
  simp only [opening]
  split
  · rfl
  · rename_i _ _ _ found
    rw [unclosed] at found
    cases found

/-- A start marker writes its block under its binding. -/
theorem interpretAll_block {runtime : Runtime} {start finish : Tree} {binding : Binding}
    {body rest after : List Tree}
    (opening : directive? runtime.config start = some (.opening binding))
    (split : splitBlock? runtime.config 0 rest = some (body, finish, after)) (context : Context) :
    interpretAll runtime (start :: rest) context =
      underBinding runtime binding (interpretAll runtime body) context ++
        interpretAll runtime after context := by
  rw [interpretAll]
  simp only [opening]
  split
  · rename_i missing
    rw [split] at missing
    cases missing
  · rename_i _ _ _ found
    rw [split] at found
    cases found
    rfl

/-- The steps of a node that is no start marker write the node. -/
theorem renderAll_nodeSteps {runtime : Runtime} {compiled : List Tree → Checked Plan}
    {children : Checked (List Step)} {first : Tree} {steps : List Step} {below : Context → Output}
    (made : (nodeSteps runtime.config compiled children first).result = .ok steps)
    (inside : ∀ plan, (compiled first.children).result = .ok plan →
      ∀ context, renderAll runtime context plan = below context)
    (under : ∀ steps, children.result = .ok steps →
      ∀ context, renderAll runtime context steps = below context) (context : Context) :
    renderAll runtime context steps = interpretNode runtime below context first := by
  obtain ⟨id, content, descendants⟩ := first
  cases content with
  | text text =>
    cases made
    exact renderAll_singleton runtime context _
  | raw tag attributes content =>
    cases made
    exact renderAll_singleton runtime context _
  | declaration text =>
    cases made
    exact renderAll_singleton runtime context _
  | comment text =>
    rw [nodeSteps] at made
    rw [interpretNode]
    cases parsed : Binding.parseDirective text runtime.config with
    | none =>
      rw [parsed] at made
      cases made
      exact renderAll_singleton runtime context _
    | some directive =>
      rw [parsed] at made
      cases made
      exact renderAll.eq_1 runtime context
  | element tag attributes =>
    rw [nodeSteps] at made
    rw [interpretNode]
    cases found : attributes.lookup runtime.config.bindingAttribute with
    | none =>
      rw [found] at made
      simp only [literalTag] at made ⊢
      by_cases void : isVoid tag = true
      · rw [if_pos void, if_pos void] at made
        rw [if_pos void]
        cases made
        exact renderAll_singleton runtime context _
      · rw [if_neg void, if_neg void] at made
        rw [if_neg void]
        obtain ⟨opening, others, opened, rest, rfl⟩ := result_both made
        obtain ⟨content, closing, between, closed, rfl⟩ := result_both rest
        cases opened
        cases closed
        rw [renderAll_append, renderAll_append, under content between, renderAll_singleton,
          renderAll_singleton, renderStep, renderStep, Output.append_assoc]
    | some source =>
      rw [found] at made
      obtain ⟨element, planned, made⟩ := result_bind made
      have written := renderAll_elementPlan planned inside context
      by_cases complete : element.isComplete = true
      · rw [if_pos complete] at made written
        cases made
        rw [Output.append_empty] at written
        exact written
      · rw [if_neg complete] at made written
        obtain ⟨opening, others, opened, rest, rfl⟩ := result_both made
        obtain ⟨content, closing, between, closed, rfl⟩ := result_both rest
        cases opened
        cases closed
        rw [renderAll_append, renderAll_append, under content between, renderAll_singleton,
          renderStep]
        exact written

/-- **The steps of a forest write what interpreting it writes.** -/
theorem renderAll_assemble {runtime : Runtime} {nodes : List Tree} {steps : List Step}
    (made : (assemble runtime.config nodes).result = .ok steps) (context : Context) :
    renderAll runtime context steps = interpretAll runtime nodes context := by
  -- the plan of an inner forest is its merged steps
  have plans : ∀ {body : List Tree}, (∀ steps, (assemble runtime.config body).result = .ok steps →
      ∀ context, renderAll runtime context steps = interpretAll runtime body context) →
      ∀ plan, (assembled runtime.config body).result = .ok plan →
      ∀ context, renderAll runtime context plan = interpretAll runtime body context := by
    intro body below plan planned context
    obtain ⟨inner, assembled, rfl⟩ := result_map planned
    rw [renderAll_merge]
    exact below inner assembled context
  refine assemble_induction (motive := fun nodes steps => ∀ context,
    renderAll runtime context steps = interpretAll runtime nodes context) ?nil ?node ?unclosed
      ?block made context
  case nil =>
    intro context
    rw [interpretAll_nil, renderAll]
  case node =>
    intro first rest own more word made below later context
    rw [interpretAll_cons word, renderAll_append, later,
      renderAll_nodeSteps made (plans below) below]
  case unclosed =>
    intro start binding rest steps opening unclosed later context
    rw [interpretAll_unclosed opening unclosed, later]
  case block =>
    intro start finish binding body after step more opening balanced closing made inside later
      context
    rw [interpretAll_block opening (splitBlock?_of_balanced balanced closing after),
      renderAll_append, later, renderAll_scopeStep made (plans inside)]

/-- **A compiled template writes what interpreting its forest writes**, for every evaluator and all
data: its output is the markup and what is noted on the way. -/
theorem render_eq_interpretAll (evaluator : Evaluator) (config : Config) (markup : String)
    (template : Template) (compiled : (ofMarkup evaluator config markup).result = .ok template) :
    ∃ fragment, Markup.parse markup = .ok fragment ∧ ∀ data,
      template.render data =
        interpretAll ⟨evaluator, config⟩ fragment.rootTrees (Context.root data) := by
  obtain ⟨fragment, steps, parsed, made, plan, rfl, rfl⟩ := exists_steps_of_ofMarkup compiled
  refine ⟨fragment, parsed, fun data => ?_⟩
  show renderAll template.runtime (Context.root data) template.plan = _
  rw [plan, renderAll_merge]
  exact renderAll_assemble made (Context.root data)

/-- A list in a guarded block, with a scope, attributes, classes, text and a void element. -/
def guardedList : String :=
  "<!-- ko if: a --><ul class=\"l\" data-bind=\"with: b, foreach: c, css: d\">" ++
    "<li data-bind=\"text: $data, attr: \x7bid: e\x7d\">x</li><br></ul><!-- /ko -->"

/-- Data of the list, with a text and an object as its items. -/
def guardedData : Value :=
  .object 0 [("a", .bool true), ("d", .string "k"),
    ("b", .object 1 [("c", .array 2 [.string "u<", .object 3 [("e", .string "v")]])])]

/-- An evaluator whose expressions are names. -/
def nameEvaluator : Evaluator := fun expression context =>
  ((Expr.resolve context expression.source).run context.firstFree).map Prod.fst

/-- A name has its own value in the expression language. -/
theorem standard_of_isWord (host : Host) (context : Context) {expression : Expression}
    (word : Expr.isWord expression.source.toList = true)
    (free : expression.source ∉ Expr.reserved) :
    Evaluator.standard host expression context = nameEvaluator expression context := by
  rw [evaluate_of_tree (expression.tree_eq.trans (Expr.parse_of_isWord word free)), Expr.eval]
  rfl

/-- **Where nothing but names is asked**, looking them up gives the same output. -/
theorem renderAll_of_names (host : Host) (config : Config) {context : Context} {plan : Plan}
    (names : ∀ consultation ∈ consultations ⟨nameEvaluator, config⟩ [] context plan,
      Expr.isWord consultation.expression.source.toList = true ∧
        consultation.expression.source ∉ Expr.reserved) :
    renderAll ⟨Evaluator.standard host, config⟩ context plan =
      renderAll ⟨nameEvaluator, config⟩ context plan := by
  have agree : ∀ consultation ∈ consultations ⟨nameEvaluator, config⟩ [] context plan,
      Runtime.evaluate ⟨nameEvaluator, config⟩ consultation.context consultation.expression =
        Runtime.evaluate ⟨Evaluator.standard host, config⟩ consultation.context
          consultation.expression := by
    intro consultation asked
    obtain ⟨word, free⟩ := names consultation asked
    exact Runtime.evaluate_congr rfl (standard_of_isWord host _ word free).symm
  exact (renderAll_congr plan agree).1.symm

/-- A template with one of each of the ways in which a binding holds its body. -/
theorem render_eq_interpretAll_guardedList : ∃ template fragment,
    (ofMarkup CommandLine.evaluator {} guardedList).result = .ok template ∧
    Markup.parse guardedList = .ok fragment ∧
    (∀ data, template.render data =
      interpretAll ⟨CommandLine.evaluator, {}⟩ fragment.rootTrees (Context.root data)) ∧
    (template.render guardedData).markup =
      "<ul class=\"l k\"><li>u&lt;</li><br /><li id=\"v\">[object Object]</li><br /></ul>" := by
  have succeeds : (match (ofMarkup CommandLine.evaluator {} guardedList).result with
      | .ok template => decide
        ((renderAll ⟨nameEvaluator, {}⟩ (Context.root guardedData) template.plan).markup =
          "<ul class=\"l k\"><li>u&lt;</li><br /><li id=\"v\">[object Object]</li><br /></ul>" ∧
        ∀ consultation ∈
            consultations ⟨nameEvaluator, {}⟩ [] (Context.root guardedData) template.plan,
          Expr.isWord consultation.expression.source.toList = true ∧
            consultation.expression.source ∉ Expr.reserved)
      | .error _ => false) = true := by
    -- The plans of the block and of the list are compiled inside of the plan of the roots.
    simp only [ofMarkup, ofFragment, ofNodes, ofTrees, planOf, compile_eq]
    unfold compiledInside
    simp only [compile_eq]
    unfold compiledInside
    simp only [compile_eq]
    decide +kernel
  split at succeeds
  · rename_i template compiled
    obtain ⟨fragment, parsed, same⟩ :=
      render_eq_interpretAll CommandLine.evaluator {} _ template compiled
    obtain ⟨_, _, _, _, _, plain, standard⟩ := exists_steps_of_ofMarkup compiled
    have runtime : template.runtime = ⟨CommandLine.evaluator, {}⟩ := by
      rw [Template.runtime, plain, standard]
    obtain ⟨written, names⟩ := of_decide_eq_true succeeds
    refine ⟨template, fragment, compiled, parsed, same, ?_⟩
    show (renderAll template.runtime (Context.root guardedData) template.plan).markup = _
    rw [runtime, ← written]
    exact congrArg Output.markup (renderAll_of_names _ {} names)
  · cases succeeds

end DataBind.Template
