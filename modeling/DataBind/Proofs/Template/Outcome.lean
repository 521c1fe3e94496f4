/-
**Which fragments compile, and with which error.**

* `Cause`: the errors that compiling can have; that an expression cannot be read is none of them;
* `cause_of_fault?`, `cause_of_matchBlocks`: the errors of nodes and of blocks are among these;
* `error?_ofFragment`: the error of a fragment is that of its plan;
* `ofFragment_outcome`: a fragment compiles if its blocks match and its visible nodes are valid, and
  otherwise the first error is reported.
-/

import DataBind.CommandLine.Run
import DataBind.Proofs.Template.Composition

namespace DataBind.Template

open Markup Markup.Tree Block Checked

variable {config : Config}

/-! ### Causes -/

/-- Why a fragment does not compile: markers that do not match, bindings that conflict, or a text
that is no object literal. -/
inductive Cause : CompileError → Prop
  | unclosed (marker : String) : Cause (.unclosedBlock marker)
  | unbalanced (marker : String) : Cause (.unbalancedBlock marker)
  | conflicting (first second : Binding.Kind) :
      first.controlsContent = true → second.controlsContent = true →
      Cause (.conflictingBindings first.name second.name)
  | literal {source text : String} {cause : Binding.LiteralError} :
      text = source ∨ text = Text.trimmed source →
      Binding.parseObjectLiteral text = .error cause → Cause (.objectLiteral source cause)

theorem cause_of_entriesOf {source : String} {error : CompileError}
    (failed : Binding.entriesOf source = .error error) : Cause error := by
  unfold Binding.entriesOf at failed
  cases parsed : Binding.parseObjectLiteral source with
  | ok entries =>
    rw [parsed] at failed
    cases failed
  | error cause =>
    rw [parsed] at failed
    cases failed
    exact .literal (Or.inl rfl) parsed

theorem cause_of_literalFault? {source : String} {error : CompileError}
    (fault : literalFault? source = some error) : Cause error := by
  unfold literalFault? at fault
  cases read : Binding.entriesOf source with
  | ok entries =>
    rw [read] at fault
    cases fault
  | error first =>
    rw [read] at fault
    cases fault
    exact cause_of_entriesOf read

/-- An iteration is read from the trimmed value. -/
theorem cause_of_iterationFault? {source : String} {error : CompileError}
    (fault : iterationFault? source = some error) : Cause error := by
  unfold iterationFault? at fault
  cases parsed : Binding.parseIteration source with
  | ok iteration =>
    rw [parsed] at fault
    cases fault
  | error cause =>
    rw [parsed] at fault
    cases fault
    unfold Binding.parseIteration at parsed
    simp only at parsed
    split at parsed
    · cases read : Binding.parseObjectLiteral (Text.trimmed source) with
      | ok entries =>
        rw [read] at parsed
        cases parsed
      | error same =>
        rw [read] at parsed
        cases parsed
        exact .literal (Or.inr rfl) read
    · cases parsed

theorem cause_of_conflict? {bindings : List Binding} {error : CompileError}
    (conflict : Binding.conflict? bindings = some error) : Cause error := by
  unfold Binding.conflict? at conflict
  split at conflict
  · rename_i first second others two
    have members : ∀ binding ∈ [first, second], binding.kind.controlsContent = true := by
      intro binding member
      have among : binding ∈ bindings.filter fun binding => binding.kind.controlsContent := by
        rw [two]
        exact List.mem_append_left others member
      exact (List.mem_filter.mp among).2
    cases conflict
    exact .conflicting _ _ (members first (by simp)) (members second (by simp))
  · cases conflict

theorem cause_of_tagFault? {binding : Binding} {error : CompileError}
    (fault : tagFault? binding = some error) : Cause error := by
  obtain ⟨kind, source⟩ := binding
  cases kind with
  | attributes => exact cause_of_literalFault? fault
  | styles => exact cause_of_literalFault? fault
  | classes =>
    rw [tagFault?] at fault
    simp only at fault
    split at fault
    · exact cause_of_literalFault? fault
    · cases fault
  | _ => cases fault

/-- **The errors of nodes** are conflicts, and texts that are no object literals. -/
theorem cause_of_fault? {node : Tree} {error : CompileError}
    (fault : fault? config node = some error) : Cause error := by
  unfold fault? at fault
  split at fault
  · obtain ⟨source, _, fault⟩ := Option.bind_eq_some_iff.mp fault
    unfold elementFault? at fault
    split at fault
    · rename_i read
      cases fault
      exact cause_of_entriesOf read
    · simp only [Option.or_eq_some_iff] at fault
      rcases fault with conflict | ⟨_, tagged | ⟨_, iteration⟩⟩
      · exact cause_of_conflict? conflict
      · obtain ⟨binding, _, own⟩ := List.exists_of_findSome?_eq_some tagged
        exact cause_of_tagFault? own
      · split at iteration
        · cases iteration
        · obtain ⟨value, _, own⟩ := Option.bind_eq_some_iff.mp iteration
          exact cause_of_iterationFault? own
  · split at fault
    · exact cause_of_iterationFault? fault
    · cases fault
  · cases fault

/-- **The errors of blocks** are markers that do not match. -/
theorem cause_of_matchBlocks {nodes : List Tree} {error : CompileError}
    (failed : (matchBlocks config nodes).result = .error error) : Cause error := by
  have stopped : ∀ error ∈ (walk (matchVisit config nodes) .start nodes).1.error, Cause error := by
    refine @logged_induction Matching (matchVisit config nodes) .start nodes
      (fun state _ => ∀ error ∈ state.error, Cause error) (by simp [Matching.start]) ?_
    intro state _ visit _ held
    unfold matchVisit
    split
    · exact held
    · split
      · exact held
      · exact held
      · unfold close
        split
        · exact held
        · split
          · exact held
          · rintro error same
            cases same
            exact .unbalanced _
  unfold matchBlocks at failed
  simp only at failed
  split at failed
  · rename_i other found
    cases failed
    exact stopped _ found
  · cases failed
    exact .unclosed _
  · cases failed

/-! ### Outcomes -/

/-- The result of compiling a fragment is that of planning its forest. -/
theorem result_ofFragment (evaluator : Evaluator) (config : Config) (fragment : Fragment) :
    (ofFragment evaluator config fragment).result =
      (planOf config fragment.rootTrees).result.map fun plan =>
        ⟨plan, config, evaluator, (planOf config fragment.rootTrees).warnings⟩ := rfl

/-- The error of a fragment is that of its plan. -/
theorem error?_ofFragment (evaluator : Evaluator) (config : Config) (fragment : Fragment) :
    (ofFragment evaluator config fragment).error? = (planOf config fragment.rootTrees).error? := by
  rw [error?, error?, result_ofFragment]
  cases (planOf config fragment.rootTrees).result with
  | error error => rfl
  | ok plan => rfl

/-- **Which fragments compile, and with which error.** A fragment compiles if and only if its blocks
can be matched and every visible node is valid. Its error is otherwise that of the blocks, or the
first one of the first visible node that is not valid; it never is that an expression cannot be
read. The elements and start markers that compiling meets are those that are visible. -/
theorem ofFragment_outcome (evaluator : Evaluator) (config : Config) (fragment : Fragment)
    (grown : fragment.Grown) :
    ((∃ template, (ofFragment evaluator config fragment).result = .ok template) ↔
      ∃ index, (matchBlocks config fragment.rootTrees).result = .ok index ∧
        ∀ node ∈ visible config index.blocks fragment.rootTrees, Valid config node) ∧
    (∀ error, (ofFragment evaluator config fragment).result = .error error ↔
      (matchBlocks config fragment.rootTrees).result = .error error ∨
      ∃ index, (matchBlocks config fragment.rootTrees).result = .ok index ∧
        ∃ before node after,
          visible config index.blocks fragment.rootTrees = before ++ node :: after ∧
            (∀ earlier ∈ before, Valid config earlier) ∧ fault? config node = some error) ∧
    (∀ error, (ofFragment evaluator config fragment).result = .error error → Cause error) ∧
    (∀ index plan, (matchBlocks config fragment.rootTrees).result = .ok index →
      (compile config index fragment.rootTrees).result = .ok plan →
      ∀ node, IsSite config node →
        ((∃ given forest state parent, Pass config index fragment.rootTrees given forest ∧
            Meets config given forest state parent node) ↔
          node ∈ visible config index.blocks fragment.rootTrees)) := by
  have known : (ofFragment evaluator config fragment).error? = _ :=
    (error?_ofFragment evaluator config fragment).trans (error?_planOf grown.distinct grown.leafy)
  refine ⟨?_, fun error => ?_, fun error failed => ?_, ?_⟩
  · rw [← error?_eq_none, known]
    cases (matchBlocks config fragment.rootTrees).result with
    | error error => simp
    | ok index => simp [List.findSome?_eq_none_iff, fault?_eq_none_iff]
  · rw [← error?_eq_some, known]
    cases (matchBlocks config fragment.rootTrees).result with
    | error first => simp
    | ok index =>
      simp only [reduceCtorEq, false_or, Except.ok.injEq, exists_eq_left',
        List.findSome?_eq_some_iff, fault?_eq_none_iff, and_comm]
  · rw [← error?_eq_some, known] at failed
    cases matched : (matchBlocks config fragment.rootTrees).result with
    | error first =>
      rw [matched] at failed
      cases failed
      exact cause_of_matchBlocks matched
    | ok index =>
      rw [matched] at failed
      obtain ⟨node, _, fault⟩ := List.exists_of_findSome?_eq_some failed
      exact cause_of_fault? fault
  · intro index plan matched compiled node site
    exact met_iff_visible_of_matched grown.distinct grown.leafy matched compiled site

/-- Neither an expression that cannot be read nor what is wrong below a node that shows a value
matters; bindings that conflict do. -/
theorem ofFragment_outcome_paragraph :
    (∃ fragment template,
      parse "<p data-bind=\"text: 1 +\"><!-- ko foreach: \x7ba --><!-- /ko --></p>" =
        .ok fragment ∧
      (ofFragment CommandLine.evaluator {} fragment).result = .ok template) ∧
    ∃ fragment, parse "<b data-bind=\"text: 1 +\">x</b><p data-bind=\"if: a, text: b\">y</p>" =
        .ok fragment ∧
      (ofFragment CommandLine.evaluator {} fragment).result =
        .error (.conflictingBindings "if" "text") := by
  constructor
  · have read : (parse "<p data-bind=\"text: 1 +\"><!-- ko foreach: \x7ba --><!-- /ko --></p>"
        ).toOption.any (fun fragment => match (matchBlocks {} fragment.rootTrees).result with
          | .ok index => decide ((visible {} index.blocks fragment.rootTrees).findSome?
              (fault? {}) = none)
          | .error _ => false) = true := by
      decide +kernel
    obtain ⟨fragment, parsed, sound⟩ := exists_of_parse_any read
    split at sound
    · rename_i index matched
      have valid := List.findSome?_eq_none_iff.mp (of_decide_eq_true sound)
      obtain ⟨template, compiled⟩ := (ofFragment_outcome CommandLine.evaluator {} fragment
        (grown_of_parse parsed)).1.mpr
          ⟨index, matched, fun node seen => fault?_eq_none_iff.mp (valid node seen)⟩
      exact ⟨fragment, template, parsed, compiled⟩
    · cases sound
  · have read : (parse "<b data-bind=\"text: 1 +\">x</b><p data-bind=\"if: a, text: b\">y</p>"
        ).toOption.any (fun fragment => match (matchBlocks {} fragment.rootTrees).result with
          | .ok index => decide ((visible {} index.blocks fragment.rootTrees).findSome?
              (fault? {}) = some (.conflictingBindings "if" "text"))
          | .error _ => false) = true := by
      decide +kernel
    obtain ⟨fragment, parsed, wrong⟩ := exists_of_parse_any read
    split at wrong
    · rename_i index matched
      obtain ⟨before, node, after, shown, fault, valid⟩ :=
        List.findSome?_eq_some_iff.mp (of_decide_eq_true wrong)
      refine ⟨fragment, parsed, ((ofFragment_outcome CommandLine.evaluator {} fragment
        (grown_of_parse parsed)).2.1 _).mpr (Or.inr ⟨index, matched, before, node, after, shown,
          fun earlier member => fault?_eq_none_iff.mp (valid earlier member), fault⟩)⟩
    · cases wrong

end DataBind.Template
