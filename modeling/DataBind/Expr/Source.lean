/-
**Expressions as templates write them.**

An expression keeps its source next to the result of parsing it, so a malformed expression is an
expression too; it fails when it is evaluated.

* `Expression.ext_source`: an expression is determined by its source;
* `Expression.source_parse`: the source kept is the text without surrounding white space.
-/

import DataBind.Expr.Parse

namespace DataBind

/-- A binding expression as written, with its syntax tree or the error in it. -/
structure Expression where
  source : String
  tree : Except Expr.SyntaxError Expr
  tree_eq : tree = Expr.parse source := by rfl

namespace Expression

/-- The expression of a text, without the white space around it. -/
def parse (text : String) : Expression :=
  { source := Text.trimmed text, tree := Expr.parse (Text.trimmed text) }

/-- The negation of the expression that a text holds. -/
def parseNegated (text : String) : Expression :=
  parse ("!(" ++ Text.trimmed text ++ ")")

/-- An expression is determined by its source. -/
theorem ext_source {first second : Expression} (same : first.source = second.source) :
    first = second := by
  obtain ⟨source, tree, parsed⟩ := first
  obtain ⟨other, otherTree, otherParsed⟩ := second
  simp only at same
  subst same
  subst parsed
  subst otherParsed
  rfl

instance : BEq Expression := ⟨fun first second => first.source == second.source⟩

instance : DecidableEq Expression := fun first second =>
  if same : first.source = second.source then .isTrue (ext_source same)
  else .isFalse fun equal => same (congrArg source equal)

@[simp] theorem source_parse (text : String) : (parse text).source = Text.trimmed text := rfl

end Expression

/-- Why the evaluation of an expression fails. -/
inductive EvalError where
  | unknownName (name : String)
  | nullishAccess (property base : String)
  | notAFunction (name : String)
  | malformed (source : String) (error : Expr.SyntaxError)
  | arguments (function expected : String) (given : Nat)
  /-- An error of the host program. -/
  | native (message : String)

namespace EvalError

/-- The wording of an error. -/
def message : EvalError → String
  | .unknownName name => name ++ " is not defined"
  | .nullishAccess property base =>
    "cannot read property " ++ Text.quoted property ++ " of " ++ base
  | .notAFunction name => name ++ " is not a function"
  | .malformed source error =>
    "syntax error in " ++ Text.quoted source ++ ": " ++ error.describe
  | .arguments function expected given =>
    function ++ ": expected " ++ expected ++ " argument(s), got " ++ toString given
  | .native message => message

end EvalError

/-- The syntax tree of an expression, or the error of evaluating it without one. -/
def Expression.tree? (expression : Expression) : Except EvalError Expr :=
  match expression.tree with
  | .ok tree => .ok tree
  | .error error => .error (.malformed expression.source error)

end DataBind
