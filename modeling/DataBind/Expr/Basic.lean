/-
**Syntax trees of binding expressions.**

* `Operator.level`: how tightly an operator between two operands binds;
* `operator?_level`: what is found at a level binds at that level.
-/

import DataBind.Expr.Token
import DataBind.Value.Basic

namespace DataBind

/-- The operators before one operand. -/
inductive UnaryOp where
  | not | negate | plus | typeOf
  deriving DecidableEq, Repr

/-- The operators on two values. -/
inductive BinaryOp where
  | add | subtract | multiply | divide | remainder
  | less | lessEqual | greater | greaterEqual
  | equal | notEqual | equalStrict | notEqualStrict
  deriving DecidableEq, Repr

/-- The operators that may leave their right operand unevaluated. -/
inductive LogicalOp where
  | both | either | otherwise
  deriving DecidableEq, Repr

/-- A binding expression. -/
inductive Expr where
  | literal (value : Value)
  | ident (name : String)
  | array (items : List Expr)
  /-- An object, its entries in the order written. -/
  | object (entries : List (String × Expr))
  | member (base : Expr) (property : String)
  | index (base key : Expr)
  | call (callee : Expr) (arguments : List Expr)
  | unary (op : UnaryOp) (operand : Expr)
  | binary (op : BinaryOp) (left right : Expr)
  | logical (op : LogicalOp) (left right : Expr)
  | conditional (test yes no : Expr)

namespace Expr

instance : Inhabited Expr := ⟨.literal .undefined⟩

/-- An operator that stands between two operands. -/
inductive Operator where
  | binary (op : BinaryOp)
  | logical (op : LogicalOp)
  deriving DecidableEq, Repr

namespace Operator

/-- The expression that an operator makes of its operands. -/
def apply : Operator → Expr → Expr → Expr
  | .binary op, left, right => .binary op left right
  | .logical op, left, right => .logical op left right

/-- How tightly an operator binds, from 0 for the loosest to 5 for the tightest. -/
def level : Operator → Nat
  | .logical .either | .logical .otherwise => 0
  | .logical .both => 1
  | .binary .equal | .binary .notEqual | .binary .equalStrict | .binary .notEqualStrict => 2
  | .binary .less | .binary .lessEqual | .binary .greater | .binary .greaterEqual => 3
  | .binary .add | .binary .subtract => 4
  | .binary .multiply | .binary .divide | .binary .remainder => 5

/-- The operator that a mark stands for. -/
def ofMark? : Punctuation → Option Operator
  | .either => some (.logical .either)
  | .otherwise => some (.logical .otherwise)
  | .both => some (.logical .both)
  | .equal => some (.binary .equal)
  | .notEqual => some (.binary .notEqual)
  | .equalStrict => some (.binary .equalStrict)
  | .notEqualStrict => some (.binary .notEqualStrict)
  | .less => some (.binary .less)
  | .lessEqual => some (.binary .lessEqual)
  | .greater => some (.binary .greater)
  | .greaterEqual => some (.binary .greaterEqual)
  | .plus => some (.binary .add)
  | .minus => some (.binary .subtract)
  | .star => some (.binary .multiply)
  | .slash => some (.binary .divide)
  | .percent => some (.binary .remainder)
  | _ => none

end Operator

/-- The operator of a level that a token stands for. -/
def operator? (level : Nat) : Token → Option Operator
  | .symbol mark => (Operator.ofMark? mark).filter fun operator => operator.level == level
  | _ => none

/-- The operator before an operand that a token stands for. -/
def unaryOperator? : Token → Option UnaryOp
  | .symbol .bang => some .not
  | .symbol .minus => some .negate
  | .symbol .plus => some .plus
  | .word "typeof" => some .typeOf
  | _ => none

/-- The expression of a single word: a keyword's value, or a name. -/
def ofWord (word : String) : Expr :=
  if word = "true" then .literal (.bool true)
  else if word = "false" then .literal (.bool false)
  else if word = "null" then .literal .null
  else if word = "undefined" then .literal .undefined
  else .ident word

/-- The property that a token names as the key of an object's entry. -/
def key? : Token → Option String
  | .word word => some word
  | .string text => some text
  | .number amount => some (Number.display amount)
  | .symbol _ => none

/-- What is found at a level binds at that level. -/
theorem operator?_level {level : Nat} {token : Token} {operator : Operator}
    (found : operator? level token = some operator) : operator.level = level := by
  unfold operator? at found
  split at found
  · simp only [Option.filter_eq_some_iff, beq_iff_eq] at found
    exact found.2
  · simp at found

end Expr

end DataBind
