/-
**Evaluating expressions.**

Operands are evaluated from left to right. The properties of `$data` come before the names of the
context, and these before the aliases. Functions are called through a table of the host program.

* `evaluate_malformed`: an expression that does not parse fails with its syntax error.
-/

import DataBind.Context
import DataBind.Expr.Builtin

namespace DataBind

/-- What the functions of the host program do, by name: a receiver and arguments give a result. -/
abbrev Host : Type :=
  (name : String) → (this : Value) → (arguments : List Value) → Evaluation Value

/-- An expression language: a value or an error for every expression in every context. -/
abbrev Evaluator : Type :=
  Expression → Context → Except EvalError Value

namespace Expr

/-- The value of a name. -/
def resolve (context : Context) (name : String) : Evaluation Value := fun fresh =>
  match context.data.property? name with
  | some value => .ok (value, fresh)
  | none =>
    match context.lookup name fresh with
    | some found => .ok found
    | none => .error (.unknownName name)

/-- Calls a method: a function among the value's properties, or a method of its type. -/
def callMethod (host : Host) (this method : Value) (arguments : List Value) : Evaluation Value := do
  match ← Builtin.property this method with
  | .function _ name => host name this arguments
  | _ =>
    match Builtin.method? this method.toText arguments with
    | some result => result
    | none => throw (.notAFunction method.toText)

/-- How two values are ordered: texts by their code points, all else as numbers. -/
def holds (op : BinaryOp) (left right : Value) : Bool :=
  match left, right with
  | .string first, .string second =>
    match op with
    | .less => first < second
    | .lessEqual => !(second < first)
    | .greater => second < first
    | .greaterEqual => !(first < second)
    | _ => false
  | _, _ =>
    let first := left.toNumber
    let second := right.toNumber
    match op with
    | .less => first < second
    | .lessEqual => first ≤ second
    | .greater => first > second
    | .greaterEqual => first ≥ second
    | _ => false

/-- Whether a value makes an addition a concatenation. -/
def joinsText : Value → Bool
  | .string _ => true
  | value => value.isCompound

/-- The value of an operator on two values. -/
def applyBinary (op : BinaryOp) (left right : Value) : Value :=
  match op with
  | .add =>
    if joinsText left || joinsText right then .string (left.toText ++ right.toText)
    else .number (left.toNumber + right.toNumber)
  | .subtract => .number (left.toNumber - right.toNumber)
  | .multiply => .number (left.toNumber * right.toNumber)
  | .divide => .number (left.toNumber / right.toNumber)
  | .remainder => .number (Number.remainder left.toNumber right.toNumber)
  | .less | .lessEqual | .greater | .greaterEqual => .bool (holds op left right)
  | .equal => .bool (left.looseEq right)
  | .notEqual => .bool (!left.looseEq right)
  | .equalStrict => .bool (left.strictEq right)
  | .notEqualStrict => .bool (!left.strictEq right)

/-- The value of an operator before an operand. -/
def applyUnary (op : UnaryOp) (operand : Value) : Value :=
  match op with
  | .not => .bool (!operand.isTruthy)
  | .negate => .number (-operand.toNumber)
  | .plus => .number operand.toNumber
  | .typeOf => .string operand.typeName

/-- Whether a logical operator is settled by its left operand. -/
def isSettled (op : LogicalOp) (left : Value) : Bool :=
  match op with
  | .both => !left.isTruthy
  | .either => left.isTruthy
  | .otherwise => !left.isNullish

/-- The name by which a called expression is known in messages. -/
def calleeName : Expr → String
  | .ident name => name
  | _ => "expression"

mutual

/-- The value of an expression in a context. -/
def eval (host : Host) (context : Context) : Expr → Evaluation Value
  | .literal value => pure value
  | .ident name => resolve context name
  | .array items => do
    let values ← evalItems host context items
    Evaluation.newArray values
  | .object entries => do
    let values ← evalEntries host context entries
    Evaluation.newObject values
  | .member base name => do
    let value ← eval host context base
    Builtin.property value (.string name)
  | .index base key => do
    let value ← eval host context base
    let property ← eval host context key
    Builtin.property value property
  | .call (.member base name) arguments => do
    let this ← eval host context base
    let values ← evalItems host context arguments
    callMethod host this (.string name) values
  | .call (.index base key) arguments => do
    let this ← eval host context base
    let method ← eval host context key
    let values ← evalItems host context arguments
    callMethod host this method values
  | .call callee arguments => do
    let values ← evalItems host context arguments
    match ← eval host context callee with
    | .function _ name => host name .undefined values
    | _ => throw (.notAFunction (calleeName callee))
  | .unary .typeOf (.ident name) =>
    -- an unknown name has a type
    tryCatch (applyUnary .typeOf <$> resolve context name)
      fun _ => pure (applyUnary .typeOf .undefined)
  | .unary op operand => do
    let value ← eval host context operand
    return applyUnary op value
  | .binary op left right => do
    let first ← eval host context left
    let second ← eval host context right
    return applyBinary op first second
  | .logical op left right => do
    let first ← eval host context left
    if isSettled op first then return first else eval host context right
  | .conditional test yes no => do
    let condition ← eval host context test
    if condition.isTruthy then eval host context yes else eval host context no

/-- The values of a list of expressions. -/
def evalItems (host : Host) (context : Context) : List Expr → Evaluation (List Value)
  | [] => pure []
  | item :: rest => do
    let value ← eval host context item
    let values ← evalItems host context rest
    return value :: values

/-- The values of the entries of an object. -/
def evalEntries (host : Host) (context : Context) :
    List (String × Expr) → Evaluation (List (String × Value))
  | [] => pure []
  | (key, item) :: rest => do
    let value ← eval host context item
    let values ← evalEntries host context rest
    return (key, value) :: values

end

end Expr

/-- The evaluator of the expression language, given the functions of the host program. New values
get identities that no value of the context has. -/
def Evaluator.standard (host : Host) : Evaluator := fun expression context => do
  let tree ← expression.tree?
  let (value, _) ← (tree.eval host context).run context.firstFree
  return value

/-- An expression that does not parse fails with its syntax error. -/
theorem evaluate_malformed (host : Host) {expression : Expression} (context : Context)
    {error : Expr.SyntaxError} (malformed : expression.tree = .error error) :
    Evaluator.standard host expression context = .error (.malformed expression.source error) := by
  simp [Evaluator.standard, Expression.tree?, malformed, bind, Except.bind]

end DataBind
