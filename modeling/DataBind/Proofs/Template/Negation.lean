/-
**Bindings that show and bindings that hide.**

A binding that hides has the negation of its text for a condition. Of two bindings with one text
exactly one writes its body if the text can be evaluated, and none if not; unless the text escapes
from the parentheses of the negation. No text whose brackets match escapes.

* `unbalanced_of_escapes`: a text that escapes has a closing parenthesis that nothing opens;
* `evaluate_parseNegated`: the negation of a text has the opposite value;
* `hides_iff_not_shows`: what is written by bindings that show and that hide.
-/

import DataBind.Proofs.Binding.Expressions
import DataBind.Proofs.Expr.Negation
import DataBind.Template.Render

namespace DataBind.Template

open DataBind.Text

/-! ### Texts that escape -/

/-- **A text that escapes** has a closing parenthesis that nothing opens. -/
theorem unbalanced_of_escapes {text : List Char} (escapes : Expr.Escapes text) :
    ∃ offset, Binding.topLevelPositions ',' text = .error (.unbalanced ')' offset) := by
  obtain ⟨tokens, read, first, rest, operand, _, rfl, derives, _⟩ := escapes
  obtain ⟨front, back, rfl, spelled, later⟩ := (Expr.spells_of_tokensOf? read).append
  have matched := Expr.matched_of_derives derives
  cases later with
  | @cons _ _ blank lexeme others before closing _ =>
    cases closing
    have passed : Binding.Passed [] (front ++ blank) :=
      (Binding.passed_of_matched matched spelled fun inside =>
        absurd inside Bool.false_ne_true).append
        (Binding.passed_of_blank before)
    obtain ⟨offset, reached⟩ := passed 0
    refine ⟨offset, ?_⟩
    have whole := reached (')' :: others)
    rw [List.append_assoc] at whole
    exact whole

/-- An expression does not escape. -/
theorem not_escapes_of_parse {text : String} {tree : Expr}
    (parsed : (Expression.parse text).tree = .ok tree) : ¬ Expr.Escapes (trim text.toList) := by
  intro escapes
  obtain ⟨offset, unbalanced⟩ := unbalanced_of_escapes escapes
  rw [Expression.tree_parse] at parsed
  have closed := (Binding.carried_of_parse parsed).passed.closed
  rw [String.toList_ofList, unbalanced] at closed
  cases closed

/-! ### Values of negations -/

section

variable {host : Host} {context : Context} {expression : Expression} {tree : Expr}

/-- The value of an expression that parses. -/
theorem evaluate_of_tree (parsed : expression.tree = .ok tree) :
    Evaluator.standard host expression context =
      ((tree.eval host context).run context.firstFree).map Prod.fst := by
  simp only [Evaluator.standard, Expression.tree?, parsed, bind, Except.bind]
  cases (tree.eval host context).run context.firstFree <;> rfl

theorem eval_not : ((Expr.unary .not tree).eval host context).run context.firstFree =
    ((tree.eval host context).run context.firstFree).map fun (value, fresh) =>
      (.bool !value.isTruthy, fresh) := by
  rw [Expr.eval]
  · simp only [StateT.run, bind, StateT.bind, Except.bind]
    cases (tree.eval host context) context.firstFree <;> rfl
  · intro name same
    cases same

/-- **The negation of a text that parses** has the opposite value, or fails as well. -/
theorem evaluate_parseNegated {text : String} (parsed : (Expression.parse text).tree = .ok tree) :
    Evaluator.standard host (Expression.parseNegated text) context =
      (Evaluator.standard host (Expression.parse text) context).map fun value =>
        .bool !value.isTruthy := by
  rw [evaluate_of_tree (Expression.parseNegated_of_parse parsed), evaluate_of_tree parsed, eval_not]
  cases (tree.eval host context).run context.firstFree <;> rfl

/-- **The negation of a text that fails** fails as well, unless the text escapes. -/
theorem evaluate_parseNegated_of_error {text : String} {error : EvalError}
    (inside : ¬ Expr.Escapes (trim text.toList))
    (failed : Evaluator.standard host (Expression.parse text) context = .error error) :
    ∃ other, Evaluator.standard host (Expression.parseNegated text) context = .error other := by
  cases parsed : (Expression.parse text).tree with
  | ok tree =>
    rw [evaluate_parseNegated parsed, failed]
    exact ⟨error, rfl⟩
  | error fault =>
    cases negated : (Expression.parseNegated text).tree with
    | error other => exact ⟨_, evaluate_malformed host context negated⟩
    | ok tree =>
      rcases (Expression.exists_parseNegated_iff text).mp ⟨tree, negated⟩ with ⟨_, found⟩ | escapes
      · rw [parsed] at found
        cases found
      · exact absurd escapes inside

end

/-! ### What guarded parts write -/

section

variable {runtime : Runtime} {context : Context} {condition : Expression} {plan : Plan}

/-- A part whose condition has a value is written if that is truthy. -/
theorem renderStep_guarded {value : Value}
    (evaluated : runtime.evaluator condition context = .ok value) :
    renderStep runtime context (.guarded condition plan) =
      if value.isTruthy then renderAll runtime context plan else .empty := by
  have found : runtime.evaluate context condition = (value, []) := by
    rw [Runtime.evaluate, evaluated]
  rw [renderStep, Runtime.withValue, found]
  exact Output.empty_append _

/-- A part whose condition fails is not written. -/
theorem markup_guarded_of_error {error : EvalError}
    (failed : runtime.evaluator condition context = .error error) :
    (renderStep runtime context (.guarded condition plan)).markup = "" := by
  have found : (runtime.evaluate context condition).1 = .undefined := by
    rw [Runtime.evaluate, failed]
  rw [renderStep, Runtime.withValue]
  simp only [found]
  rfl

end

/-- What a binding that shows or hides writes for its body. -/
def guardedOutput (host : Host) (config : Config) (context : Context) (plan : Plan)
    (binding : Binding) : Output :=
  renderStep ⟨Evaluator.standard host, config⟩ context (.guarded binding.expression plan)

/-- **A binding that hides is the negation of one that shows**, for every text that does not escape
from the parentheses of the negation. -/
theorem hides_iff_not_shows (text : String) :
    (∀ tree, (Expression.parse text).tree = .ok tree →
      (Expression.parseNegated text).tree = .ok (.unary .not tree)) ∧
    ((∃ tree, (Expression.parseNegated text).tree = .ok tree) ↔
      (∃ tree, (Expression.parse text).tree = .ok tree) ∨ Expr.Escapes (trim text.toList)) ∧
    (Expr.Escapes (trim text.toList) →
      (∀ tree, (Expression.parse text).tree ≠ .ok tree) ∧
      ∃ offset, Binding.topLevelPositions ',' (trim text.toList) =
        .error (.unbalanced ')' offset)) ∧
    ∀ host config context plan,
      (∀ value, Evaluator.standard host (Expression.parse text) context = .ok value →
        guardedOutput host config context plan ⟨.showIf, text⟩ =
            (if value.isTruthy then renderAll ⟨Evaluator.standard host, config⟩ context plan
              else .empty) ∧
          guardedOutput host config context plan ⟨.showIfNot, text⟩ =
            (if value.isTruthy then .empty
              else renderAll ⟨Evaluator.standard host, config⟩ context plan)) ∧
      ((∀ value, Evaluator.standard host (Expression.parse text) context ≠ .ok value) →
        (guardedOutput host config context plan ⟨.showIf, text⟩).markup = "" ∧
          (¬ Expr.Escapes (trim text.toList) →
            (guardedOutput host config context plan ⟨.showIfNot, text⟩).markup = "")) := by
  refine ⟨fun tree => Expression.parseNegated_of_parse, Expression.exists_parseNegated_iff text,
    fun escapes => ⟨fun tree parsed => not_escapes_of_parse parsed escapes,
      unbalanced_of_escapes escapes⟩, fun host config context plan => ⟨?_, ?_⟩⟩
  · intro value evaluated
    obtain ⟨tree, parsed⟩ : ∃ tree, (Expression.parse text).tree = .ok tree := by
      cases parsed : (Expression.parse text).tree with
      | ok tree => exact ⟨tree, rfl⟩
      | error error =>
        rw [evaluate_malformed host context parsed] at evaluated
        cases evaluated
    have opposite : Evaluator.standard host (Expression.parseNegated text) context = _ :=
      evaluate_parseNegated parsed
    rw [evaluated] at opposite
    refine ⟨renderStep_guarded evaluated, (renderStep_guarded opposite).trans ?_⟩
    have flag : (Value.bool !value.isTruthy).isTruthy = !value.isTruthy := rfl
    rw [flag]
    cases value.isTruthy <;> rfl
  · intro unknown
    cases evaluated : Evaluator.standard host (Expression.parse text) context with
    | ok value => exact absurd evaluated (unknown value)
    | error error =>
      refine ⟨markup_guarded_of_error evaluated, fun inside => ?_⟩
      obtain ⟨other, failed⟩ := evaluate_parseNegated_of_error inside evaluated
      exact markup_guarded_of_error failed

/-- **A text that escapes**: it is no expression, its brackets do not match, and as a binding that
hides it writes its body. -/
theorem hides_without_parsing :
    Binding.parseDirective " ko ifnot: a) || (b " {} = some (.opening ⟨.showIfNot, "a) || (b"⟩) ∧
    (∀ tree, (Expression.parse "a) || (b").tree ≠ .ok tree) ∧
    (Expression.parseNegated "a) || (b").tree =
      .ok (.logical .either (.unary .not (.ident "a")) (.ident "b")) ∧
    ∀ host, guardedOutput host {} (Context.root (.object 0 (Entries.ofList [("a", .bool false)])))
      [.literal "x"] ⟨.showIfNot, "a) || (b"⟩ = .write "x" := by
  have whole : trim "a) || (b".toList = ['a', ')', ' ', '|', '|', ' ', '(', 'b'] := by
    decide
  have unbalanced : Binding.topLevelPositions ',' (trim "a) || (b".toList) =
      .error (.unbalanced ')' 1) := by
    decide
  have read : Expr.tokensOf? (trim "a) || (b".toList) = some [.word "a", .symbol .closeParen,
      .symbol .either, .symbol .openParen, .word "b"] := by
    rw [whole, Expr.tokensOf?_word [] [')', ' ', '|', '|', ' ', '(', 'b'] rfl rfl rfl (by decide)
        rfl rfl,
      Expr.tokensOf?_mark rfl rfl rfl (by decide) rfl, Expr.tokensOf?_blank rfl,
      Expr.tokensOf?_mark rfl rfl rfl (by decide) rfl, Expr.tokensOf?_blank rfl,
      Expr.tokensOf?_mark rfl rfl rfl (by decide) rfl,
      Expr.tokensOf?_word [] [] rfl rfl rfl (by decide) rfl rfl, Expr.tokensOf?_nil]
    rfl
  have derives : Expr.Derives .disjunction [.symbol .bang, .symbol .openParen, .word "a",
      .symbol .closeParen, .symbol .either, .symbol .openParen, .word "b", .symbol .closeParen]
      (.logical .either (.unary .not (.ident "a")) (.ident "b")) := by
    have second : Expr.Derives .conjunction [.symbol .openParen, .word "b", .symbol .closeParen]
        (.ident "b") := (Expr.Derives.parentheses (.ident (by decide))).loosen (by decide)
    have operand : Expr.Derives .unary [.symbol .openParen, .word "a", .symbol .closeParen]
        (.ident "a") := (Expr.Derives.parentheses (.ident (by decide))).loosen (by decide)
    have first : Expr.Derives .unary [Expr.unaryToken .not, .symbol .openParen, .word "a",
        .symbol .closeParen] (.unary .not (.ident "a")) := .unary operand
    have member : Expr.Operator.logical .either ∈ Expr.Level.operators .disjunction := by decide
    exact Expr.Derives.joined member (first.loosen (by decide)) second
  have negation : (Expression.parseNegated "a) || (b").tree =
      .ok (.logical .either (.unary .not (.ident "a")) (.ident "b")) := by
    rw [Expression.tree_parseNegated, Expr.parse_eq_ok_iff, String.toList_ofList,
      Expr.tokensOf?_negated, read]
    exact ⟨_, rfl, derives.loosen (by decide)⟩
  refine ⟨by decide, fun tree parsed => ?_, negation, fun host => ?_⟩
  · rw [Expression.tree_parse] at parsed
    have closed := (Binding.carried_of_parse parsed).passed.closed
    rw [String.toList_ofList, unbalanced] at closed
    cases closed
  · have value : Evaluator.standard host (Expression.parseNegated "a) || (b")
        (Context.root (.object 0 (Entries.ofList [("a", .bool false)]))) = .ok (.bool true) := by
      rw [evaluate_of_tree negation]
      rfl
    have shown : renderStep ⟨Evaluator.standard host, {}⟩
        (Context.root (.object 0 (Entries.ofList [("a", .bool false)])))
        (.guarded (Expression.parseNegated "a) || (b") [.literal "x"]) = _ :=
      renderStep_guarded value
    exact shown

end DataBind.Template
