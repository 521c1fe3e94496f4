/-
**What a render asks the evaluator.**

A render asks for the values of expressions in contexts. Every question comes from a place in the
plan, and its context is reached by entering one scope for each step around that place that is
repeated or has data of its own. Nothing but the answers to these questions decides what is written.

* `Step.expressions`, `Step.part`, `partContexts`: what a step asks itself, what stands inside of it,
  and the contexts in which that is rendered;
* `planInduction`: what holds of a plan if it holds of the parts of its steps;
* `consultations`: the questions of a render, in order;
* `Occurs`: an expression stands in a plan, inside of some steps;
* `placed_of_mem_consultations`: where questions come from;
* `renderAll_congr`: evaluators that agree on the questions give the same output;
* `render_consults`: both, for all templates and all data, with what the contexts say.
-/

import DataBind.Proofs.Context.Path
import DataBind.Template.Basic
import Mathlib.Data.List.Basic

namespace DataBind.Template

/-! ### Steps and what stands inside of them -/

namespace Step

/-- The expressions that a step asks for itself. -/
def expressions : Step → List Expression
  | .literal _ | .escapedText _ | .attributes _ | .raw _ => []
  | .attribute _ value | .text value | .html value => [value]
  | .classes _ (.conditional entries) => entries.map Prod.snd
  | .classes _ (.expression names) => [names]
  | .styles _ dynamic => dynamic.map Prod.snd
  | .guarded condition _ => [condition]
  | .repeated items _ _ => [items]
  | .scoped data _ => [data]

/-- The plan inside of a step. -/
def part : Step → Plan
  | .guarded _ plan | .repeated _ _ plan | .scoped _ plan => plan
  | _ => []

/-- Whether a step enters scopes. -/
def enters : Step → Bool
  | .repeated _ _ _ | .scoped _ _ => true
  | _ => false

/-- Whether a move is how a step enters a scope. -/
def Opens : Step → Move → Prop
  | .repeated _ alias? _, .iteration _ _ other? => other? = alias?
  | .scoped _ _, .scope _ => True
  | _, _ => False

theorem Opens.enters {step : Step} {move : Move} (opens : step.Opens move) :
    step.enters = true ∧ move.enters = true := by
  cases step <;> cases move <;> first | exact ⟨rfl, rfl⟩ | cases opens

end Step

/-- The contexts in which the part of a step is rendered. -/
def partContexts (runtime : Runtime) (context : Context) : Step → List Context
  | .guarded condition _ =>
    if (runtime.evaluate context condition).1.isTruthy then [context] else []
  | .repeated items alias? _ =>
    (itemsOf (runtime.evaluate context items).1).mapIdx fun index item =>
      context.deriveForIteration item index alias?
  | .scoped data _ => [context.deriveFor (runtime.evaluate context data).1]
  | _ => []

/-- The output of a step without its part. -/
def ownOutput (runtime : Runtime) (context : Context) : Step → Output
  | .guarded expression _ | .repeated expression _ _ | .scoped expression _ =>
    ⟨"", (runtime.evaluate context expression).2⟩
  | step => renderStep runtime context step

/-- **A step writes its own output**, and then its part in each of its contexts. -/
theorem renderStep_eq (runtime : Runtime) (context : Context) (step : Step) :
    renderStep runtime context step = ownOutput runtime context step ++
      Output.join ((partContexts runtime context step).map fun inner =>
        renderAll runtime inner step.part) := by
  have single : ∀ output, Output.join [output] = output := Output.empty_append
  cases step with
  | guarded condition plan =>
    simp only [renderStep, Runtime.withValue, ownOutput, partContexts, Step.part]
    split
    · rw [List.map_singleton, single]
    · rfl
  | repeated items alias? plan =>
    simp only [renderStep, Runtime.withValue, ownOutput, partContexts, Step.part,
      List.mapIdx_eq_zipIdx_map, List.map_map]
    rfl
  | «scoped» data plan =>
    simp only [renderStep, Runtime.withValue, ownOutput, partContexts, Step.part,
      List.map_singleton, single]
  | _ => exact (Output.append_empty _).symm

/-- **What holds of a plan** if it holds of the empty plan, and of a step followed by a plan if it
holds of the part of the step and of that plan. -/
theorem planInduction {motive : Plan → Prop} (nil : motive [])
    (cons : ∀ step rest, motive step.part → motive rest → motive (step :: rest)) :
    ∀ plan, motive plan
  | [] => nil
  | step :: rest => cons step rest (planInduction nil cons step.part) (planInduction nil cons rest)
termination_by plan => sizeOf plan
decreasing_by
  · cases step <;> simp [Step.part] <;> omega
  · simp +arith

/-! ### Questions -/

/-- A question to the evaluator: the steps around it, innermost first, and what is asked where. -/
structure Consultation where
  within : List Step
  expression : Expression
  context : Context

mutual

/-- The questions of rendering a step, in order. -/
def stepConsultations (runtime : Runtime) (around : List Step) (context : Context) :
    Step → List Consultation
  | .guarded condition plan =>
    ⟨around, condition, context⟩ ::
      (partContexts runtime context (.guarded condition plan)).flatMap fun inner =>
        consultations runtime (.guarded condition plan :: around) inner plan
  | .repeated items alias? plan =>
    ⟨around, items, context⟩ ::
      (partContexts runtime context (.repeated items alias? plan)).flatMap fun inner =>
        consultations runtime (.repeated items alias? plan :: around) inner plan
  | .scoped data plan =>
    ⟨around, data, context⟩ ::
      (partContexts runtime context (.scoped data plan)).flatMap fun inner =>
        consultations runtime (.scoped data plan :: around) inner plan
  | step => step.expressions.map fun expression => ⟨around, expression, context⟩

/-- The questions of rendering a plan, in order. -/
def consultations (runtime : Runtime) (around : List Step) (context : Context) :
    List Step → List Consultation
  | [] => []
  | step :: rest =>
    stepConsultations runtime around context step ++ consultations runtime around context rest

end

/-- **The questions of a step** are its own, and those of its part in each of its contexts. -/
theorem consultations_cons (runtime : Runtime) (around : List Step) (context : Context)
    (step : Step) (rest : Plan) :
    consultations runtime around context (step :: rest) =
      (step.expressions.map fun expression => ⟨around, expression, context⟩) ++
        ((partContexts runtime context step).flatMap fun inner =>
          consultations runtime (step :: around) inner step.part) ++
        consultations runtime around context rest := by
  rw [consultations]
  congr 1
  cases step with
  | guarded condition plan => rw [stepConsultations]; rfl
  | repeated items alias? plan => rw [stepConsultations]; rfl
  | «scoped» data plan => rw [stepConsultations]; rfl
  | _ => exact (List.append_nil _).symm

/-! ### Where questions come from -/

/-- **An expression stands in a plan**, inside of some steps, the innermost one first: it is an
expression of a step of the plan, or it stands in the part of such a step. -/
inductive Occurs : List Step → Plan → List Step → Expression → Prop
  | own {around : List Step} {plan : Plan} {step : Step} {expression : Expression} :
    step ∈ plan → expression ∈ step.expressions → Occurs around plan around expression
  | inner {around within : List Step} {plan : Plan} {step : Step} {expression : Expression} :
    step ∈ plan → Occurs (step :: around) step.part within expression →
    Occurs around plan within expression

theorem Occurs.cons {around within : List Step} {plan : Plan} {expression : Expression}
    (occurs : Occurs around plan within expression) (step : Step) :
    Occurs around (step :: plan) within expression := by
  cases occurs with
  | own member asks => exact .own (List.mem_cons_of_mem _ member) asks
  | inner member below => exact .inner (List.mem_cons_of_mem _ member) below

/-- **A path enters scopes as steps do**, one for each step that enters any. -/
inductive Mirrors : List Step → List Move → Prop
  | root : Mirrors [] []
  | stay {step : Step} {within : List Step} {path : List Move} :
    step.enters = false → Mirrors within path → Mirrors (step :: within) path
  | enter {step : Step} {move : Move} {within : List Step} {path : List Move} :
    step.Opens move → Mirrors within path → Mirrors (step :: within) (move :: path)

/-- **The part of a step is rendered in contexts that mirror it.** -/
theorem exists_path_of_mem_partContexts {runtime : Runtime} {root : Value} {path : List Move}
    {step : Step} {inner : Context}
    (member : inner ∈ partContexts runtime (.along root path) step) :
    ∃ further, inner = .along root further ∧
      ∀ around, Mirrors around path → Mirrors (step :: around) further := by
  cases step with
  | guarded condition plan =>
    rw [partContexts] at member
    split at member
    · rw [List.mem_singleton] at member
      exact ⟨path, member, fun _ mirrors => .stay rfl mirrors⟩
    · cases member
  | repeated items alias? plan =>
    obtain ⟨index, below, rfl⟩ := List.mem_mapIdx.mp member
    exact ⟨.iteration _ index alias? :: path, rfl, fun _ mirrors => .enter rfl mirrors⟩
  | «scoped» data plan =>
    rw [partContexts, List.mem_singleton] at member
    exact ⟨.scope _ :: path, member, fun _ mirrors => .enter trivial mirrors⟩
  | _ => cases member

/-- **Questions come from places in the plan**, and their contexts are reached by entering scopes as
the steps around these places do. -/
theorem placed_of_mem_consultations {runtime : Runtime} {root : Value} (plan : Plan) :
    ∀ {around : List Step} {path : List Move}, Mirrors around path →
      ∀ consultation ∈ consultations runtime around (.along root path) plan,
        Occurs around plan consultation.within consultation.expression ∧
          ∃ further, consultation.context = .along root further ∧
            Mirrors consultation.within further := by
  induction plan using planInduction with
  | nil => exact fun _ _ member => by cases member
  | cons step rest below later =>
    intro around path mirrors consultation member
    rw [consultations_cons, List.mem_append, List.mem_append] at member
    rcases member with (own | inside) | after
    · obtain ⟨expression, asks, rfl⟩ := List.mem_map.mp own
      exact ⟨.own List.mem_cons_self asks, path, rfl, mirrors⟩
    · obtain ⟨inner, entered, asked⟩ := List.mem_flatMap.mp inside
      obtain ⟨further, rfl, mirrored⟩ := exists_path_of_mem_partContexts entered
      obtain ⟨occurs, placed⟩ := below (mirrored around mirrors) consultation asked
      exact ⟨.inner List.mem_cons_self occurs, placed⟩
    · obtain ⟨occurs, placed⟩ := later mirrors consultation after
      exact ⟨occurs.cons step, placed⟩

/-- A path enters as many scopes as there are steps that enter any. -/
theorem Mirrors.length_outerPaths {within : List Step} {path : List Move}
    (mirrors : Mirrors within path) : (outerPaths path).length = within.countP Step.enters := by
  induction mirrors with
  | root => rfl
  | stay stays _ ih => rw [ih, List.countP_cons, stays, if_neg (by decide), Nat.add_zero]
  | enter opens _ ih =>
    rw [outerPaths, if_pos opens.enters.2, List.length_cons, ih, List.countP_cons,
      if_pos opens.enters.1]

/-! ### What decides the output -/

section Agreement

variable {first second : Runtime} {context : Context}

/-- Evaluators with the same answer give the same value and the same notices. -/
theorem Runtime.evaluate_congr {expression : Expression} (config : first.config = second.config)
    (same : first.evaluator expression context = second.evaluator expression context) :
    first.evaluate context expression = second.evaluate context expression := by
  rw [Runtime.evaluate, Runtime.evaluate, config, same]

/-- Conditional classes depend on their conditions only. -/
theorem conditionalClasses_congr {entries : List (String × Expression)}
    (agree : ∀ expression ∈ entries.map Prod.snd,
      first.evaluate context expression = second.evaluate context expression) :
    conditionalClasses first context entries = conditionalClasses second context entries := by
  induction entries with
  | nil => rfl
  | cons entry rest ih =>
    have here := agree entry.2 List.mem_cons_self
    have later := ih fun expression member => agree expression (List.mem_cons_of_mem _ member)
    rw [conditionalClasses, conditionalClasses, here, later]

/-- Dynamic declarations depend on their values only. -/
theorem dynamicDeclarations_congr {entries : List (String × Expression)}
    (agree : ∀ expression ∈ entries.map Prod.snd,
      first.evaluate context expression = second.evaluate context expression) :
    dynamicDeclarations first context entries = dynamicDeclarations second context entries := by
  induction entries with
  | nil => rfl
  | cons entry rest ih =>
    have here := agree entry.2 List.mem_cons_self
    have later := ih fun expression member => agree expression (List.mem_cons_of_mem _ member)
    rw [dynamicDeclarations, dynamicDeclarations, here, later]

/-- A step's own output, and the contexts of its part, depend on its own expressions only. -/
theorem step_congr {step : Step}
    (agree : ∀ expression ∈ step.expressions,
      first.evaluate context expression = second.evaluate context expression) :
    ownOutput first context step = ownOutput second context step ∧
      partContexts first context step = partContexts second context step := by
  cases step with
  | literal _ | escapedText _ | «attributes» _ | raw _ => exact ⟨rfl, rfl⟩
  | «attribute» _ value | text value | html value =>
    have same := agree value List.mem_cons_self
    simp only [ownOutput, partContexts, renderStep, Runtime.withValue, same, and_self]
  | classes fixed dynamic =>
    have same : dynamicClasses first context dynamic = dynamicClasses second context dynamic := by
      cases dynamic with
      | conditional entries => exact conditionalClasses_congr agree
      | expression names => rw [dynamicClasses, dynamicClasses, agree names List.mem_cons_self]
    simp only [ownOutput, partContexts, renderStep, classesOutput, same, and_self]
  | styles fixed dynamic =>
    have same := dynamicDeclarations_congr agree
    simp only [ownOutput, partContexts, renderStep, stylesOutput, same, and_self]
  | guarded expression _ | repeated expression _ _ | «scoped» expression _ =>
    have same := agree expression List.mem_cons_self
    simp only [ownOutput, partContexts, same, and_self]

/-- **Evaluators that agree on the questions** are asked the same and give the same output. -/
theorem renderAll_congr (plan : Plan) :
    ∀ {around : List Step} {context : Context},
      (∀ consultation ∈ consultations first around context plan,
        first.evaluate consultation.context consultation.expression =
          second.evaluate consultation.context consultation.expression) →
      renderAll first context plan = renderAll second context plan ∧
        consultations first around context plan = consultations second around context plan := by
  induction plan using planInduction with
  | nil => exact fun _ => ⟨rfl, rfl⟩
  | cons step rest below later =>
    intro around context agree
    rw [consultations_cons] at agree
    simp only [List.forall_mem_append] at agree
    obtain ⟨⟨own, inside⟩, after⟩ := agree
    obtain ⟨output, contexts⟩ := step_congr (List.forall_mem_map.mp own)
    obtain ⟨rendered, asked⟩ := later after
    have parts : ∀ inner ∈ partContexts first context step,
        renderAll first inner step.part = renderAll second inner step.part ∧
          consultations first (step :: around) inner step.part =
            consultations second (step :: around) inner step.part :=
      fun inner entered => below fun consultation member =>
        inside consultation (List.mem_flatMap.mpr ⟨inner, entered, member⟩)
    constructor
    · rw [renderAll, renderAll, renderStep_eq, renderStep_eq, output, rendered, ← contexts,
        List.map_congr_left fun inner entered => (parts inner entered).1]
    · rw [consultations_cons, consultations_cons, asked, ← contexts,
        List.flatMap_congr fun inner entered => (parts inner entered).2]

end Agreement

/-! ### Templates -/

/-- The questions of rendering a template for a value, in order. -/
def questions (template : Template) (data : Value) : List Consultation :=
  consultations template.runtime [] (Context.root data) template.plan

/-- **What contexts say, and which of them a render asks about.** A context describes the path to
it. Every question of a render comes from a place in the plan; its context is reached from the root
context of the data and has as many parents as there are steps around that place that are repeated
or have data of their own. Another evaluator that gives the same answers to these questions is asked
the same, and the output is the same. -/
theorem render_consults :
    (∀ root path, Described root path (Context.along root path)) ∧
    ∀ (template : Template) (data : Value),
      (∀ consultation ∈ template.questions data,
        Occurs [] template.plan consultation.within consultation.expression ∧
        (∃ path, consultation.context = Context.along data path ∧
          Mirrors consultation.within path) ∧
        consultation.context.parents.length = consultation.within.countP Step.enters) ∧
      ∀ evaluator : Evaluator,
        (∀ consultation ∈ template.questions data,
          evaluator consultation.expression consultation.context =
            template.evaluator consultation.expression consultation.context) →
        (template.withEvaluator evaluator).render data = template.render data ∧
          (template.withEvaluator evaluator).questions data = template.questions data := by
  refine ⟨described_along, fun template data => ⟨fun consultation member => ?_, ?_⟩⟩
  · obtain ⟨occurs, path, reached, mirrors⟩ :=
      placed_of_mem_consultations template.plan .root consultation member
    refine ⟨occurs, ⟨path, reached, mirrors⟩, ?_⟩
    rw [reached, (described_along data path).parents, List.length_map, mirrors.length_outerPaths]
  · intro evaluator agree
    have same : ∀ consultation ∈ template.questions data,
        template.runtime.evaluate consultation.context consultation.expression =
          (template.withEvaluator evaluator).runtime.evaluate consultation.context
            consultation.expression :=
      fun consultation member => Runtime.evaluate_congr rfl (agree consultation member).symm
    obtain ⟨output, asked⟩ := renderAll_congr template.plan same
    exact ⟨output.symm, asked.symm⟩

/-- An evaluator whose expressions are aliases or names of fields. -/
def namesEvaluator : Evaluator := fun expression context =>
  match context.alias? expression.source, context.data with
  | some value, _ => .ok value
  | none, .object _ entries => .ok ((entries.lookup expression.source).getD .undefined)
  | none, _ => .error (.unknownName expression.source)

/-- The cells of some rows are shown if they are marked, with the names of their rows. -/
def cellsTemplate : Template where
  plan := [.repeated (.parse "rows") (some "row") [.scoped (.parse "cell")
    [.guarded (.parse "marked") [.text (.parse "row")]]]]
  config := {}
  evaluator := namesEvaluator
  warnings := []

/-- A marked cell in a row, and one that is not marked in another row. -/
def cellsData : Value :=
  .object 0 [("rows", .array 1 [
    .object 2 [("cell", .object 3 [("marked", .bool true)])],
    .object 4 [("cell", .object 5 [("marked", .bool false)])]])]

/-- The name of a row is asked for inside of three steps, two of which enter scopes, and what other
names denote is of no consequence. -/
theorem render_consults_cells :
    (cellsTemplate.questions cellsData).map (fun consultation => consultation.expression.source) =
      ["rows", "cell", "marked", "row", "cell", "marked"] ∧
    (∃ consultation ∈ cellsTemplate.questions cellsData,
      consultation.expression.source = "row" ∧
      Occurs [] cellsTemplate.plan consultation.within consultation.expression ∧
      (∃ path, consultation.context = Context.along cellsData path ∧
        Mirrors consultation.within path) ∧
      consultation.within.length = 3 ∧ consultation.context.parents.length = 2) ∧
    (cellsTemplate.withEvaluator fun expression context =>
        if expression.source = "other" then .error (.unknownName "other")
        else namesEvaluator expression context).render cellsData =
      cellsTemplate.render cellsData := by
  have asked : (cellsTemplate.questions cellsData).map
      (fun consultation => consultation.expression.source) =
        ["rows", "cell", "marked", "row", "cell", "marked"] := by decide +kernel
  have found : ∃ consultation ∈ cellsTemplate.questions cellsData,
      consultation.expression.source = "row" ∧ consultation.within.length = 3 ∧
        consultation.within.countP Step.enters = 2 := by decide +kernel
  obtain ⟨placed, decided⟩ := render_consults.2 cellsTemplate cellsData
  refine ⟨asked, ?_, (decided _ fun consultation member => if_neg fun other => ?_).1⟩
  · obtain ⟨consultation, member, source, length, count⟩ := found
    obtain ⟨occurs, reached, parents⟩ := placed consultation member
    exact ⟨consultation, member, source, occurs, reached, length, parents.trans count⟩
  · have listed := List.mem_map_of_mem (f := fun consultation => consultation.expression.source)
      member
    rw [asked, other] at listed
    exact absurd listed (by decide)

end DataBind.Template
