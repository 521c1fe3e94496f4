/-
**The grammar of binding expressions.**

An expression is derived from tokens at one of ten levels, from the conditional down to the primary
expressions. Operators between operands associate to the left, the conditional to the right. In
parentheses an expression of every level is primary. Arguments, items and entries are separated by
commas, and one more may stand after the last.

* `Level`: the levels, each with the operators of its own (`Level.operators`);
* `Listed`: parts separated by commas;
* `Derives`: which tokens are which expression, at which level;
* `Derives.loosen`: an expression of a level is one of every looser level;
* `Derives.head`: the tokens that an expression can start with;
* `operator?_eq_some`: the operators that are found in a depth of the recursion are those of the
  level at that depth.
-/

import DataBind.Expr.Basic
import Mathlib.Tactic.Basic

namespace DataBind.Expr

/-! ### Levels -/

/-- The levels of the grammar, the loosest first. -/
inductive Level where
  | conditional | disjunction | conjunction | equality | relational | additive | multiplicative
  | unary | access | primary
  deriving DecidableEq, Repr

/-- The mark that an operator is written with. -/
def Operator.mark : Operator → Punctuation
  | .logical .either => .either
  | .logical .otherwise => .otherwise
  | .logical .both => .both
  | .binary .equal => .equal
  | .binary .notEqual => .notEqual
  | .binary .equalStrict => .equalStrict
  | .binary .notEqualStrict => .notEqualStrict
  | .binary .less => .less
  | .binary .lessEqual => .lessEqual
  | .binary .greater => .greater
  | .binary .greaterEqual => .greaterEqual
  | .binary .add => .plus
  | .binary .subtract => .minus
  | .binary .multiply => .star
  | .binary .divide => .slash
  | .binary .remainder => .percent

namespace Level

/-- The next tighter level. -/
def next : Level → Level
  | conditional => disjunction
  | disjunction => conjunction
  | conjunction => equality
  | equality => relational
  | relational => additive
  | additive => multiplicative
  | multiplicative => unary
  | unary => access
  | access => primary
  | primary => primary

/-- The operators that join operands at a level. -/
def operators : Level → List Operator
  | disjunction => [.logical .either, .logical .otherwise]
  | conjunction => [.logical .both]
  | equality => [.binary .equal, .binary .notEqual, .binary .equalStrict, .binary .notEqualStrict]
  | relational => [.binary .less, .binary .lessEqual, .binary .greater, .binary .greaterEqual]
  | additive => [.binary .add, .binary .subtract]
  | multiplicative => [.binary .multiply, .binary .divide, .binary .remainder]
  | _ => []

/-- The number of a level, from 0 for the loosest. -/
def rank : Level → Nat
  | conditional => 0
  | disjunction => 1
  | conjunction => 2
  | equality => 3
  | relational => 4
  | additive => 5
  | multiplicative => 6
  | unary => 7
  | access => 8
  | primary => 9

theorem rank_le_next (level : Level) : level.rank ≤ level.next.rank := by
  cases level <;> decide

/-- The level that is read at a depth of the operators: at six and more the operators before an
operand. -/
def atDepth : Nat → Level
  | 0 => disjunction
  | 1 => conjunction
  | 2 => equality
  | 3 => relational
  | 4 => additive
  | 5 => multiplicative
  | _ => unary

theorem next_atDepth {depth : Nat} (below : depth < 6) :
    (atDepth depth).next = atDepth (depth + 1) := by
  match depth with
  | 0 | 1 | 2 | 3 | 4 | 5 => rfl
  | depth + 6 => omega

/-- A level with operators is read at one of the six depths. -/
theorem exists_depth {level : Level} {operator : Operator} (member : operator ∈ level.operators) :
    ∃ depth, depth < 6 ∧ level = atDepth depth := by
  cases level with
  | disjunction => exact ⟨0, by decide, rfl⟩
  | conjunction => exact ⟨1, by decide, rfl⟩
  | equality => exact ⟨2, by decide, rfl⟩
  | relational => exact ⟨3, by decide, rfl⟩
  | additive => exact ⟨4, by decide, rfl⟩
  | multiplicative => exact ⟨5, by decide, rfl⟩
  | conditional => cases member
  | unary => cases member
  | access => cases member
  | primary => cases member

end Level

/-- The token of an operator before an operand. -/
def unaryToken : UnaryOp → Token
  | .not => .symbol .bang
  | .negate => .symbol .minus
  | .plus => .symbol .plus
  | .typeOf => .word "typeof"

/-- The words that stand for a value. -/
def keywords : List (String × Value) :=
  [("true", .bool true), ("false", .bool false), ("null", .null), ("undefined", .undefined)]

/-- The words that are no names: those of values, and the operator. -/
def reserved : List String :=
  "typeof" :: keywords.map Prod.fst

/-! ### Derivations -/

/-- Parts separated by commas, of which one more may stand after the last part. -/
inductive Listed : List (List Token) → List Token → Prop
  | empty : Listed [] []
  | last (part : List Token) : Listed [part] part
  | more {part : List Token} {parts : List (List Token)} {rest : List Token} :
      Listed parts rest → Listed (part :: parts) (part ++ .symbol .comma :: rest)

/-- The token of a key, and the property that it names. -/
inductive Keyed : Token → String → Prop
  | word (name : String) : Keyed (.word name) name
  | string (text : String) : Keyed (.string text) text
  | number (amount : Float) : Keyed (.number amount) (Number.display amount)

/-- An entry of an object: the token of its key, the property, and the tokens of its value. -/
structure Entry where
  key : Token
  property : String
  tokens : List Token
  value : Expr

/-- The tokens of an entry. -/
def Entry.written (entry : Entry) : List Token :=
  entry.key :: .symbol .colon :: entry.tokens

/-- The tokens of an expression at a level. -/
inductive Derives : Level → List Token → Expr → Prop
  /-- An expression of the next tighter level. -/
  | tighter {level : Level} {tokens : List Token} {value : Expr} :
      Derives level.next tokens value → Derives level tokens value
  /-- A condition and two conditionals, the second of which is as long as possible. -/
  | conditional {asked chosen other : List Token} {test yes no : Expr} :
      Derives .disjunction asked test → Derives .conditional chosen yes →
      Derives .conditional other no →
      Derives .conditional (asked ++ .symbol .question :: (chosen ++ .symbol .colon :: other))
        (.conditional test yes no)
  /-- Two operands, the left of the same level, joined by an operator of the level. -/
  | joined {level : Level} {operator : Operator} {first second : List Token}
      {left right : Expr} :
      operator ∈ level.operators → Derives level first left → Derives level.next second right →
      Derives level (first ++ .symbol operator.mark :: second) (operator.apply left right)
  /-- An operator before an operand. -/
  | unary {op : UnaryOp} {tokens : List Token} {operand : Expr} :
      Derives .unary tokens operand → Derives .unary (unaryToken op :: tokens) (.unary op operand)
  /-- A point and a word after an expression. -/
  | member {tokens : List Token} {base : Expr} (property : String) :
      Derives .access tokens base →
      Derives .access (tokens ++ [.symbol .dot, .word property]) (.member base property)
  /-- A key in brackets after an expression. -/
  | index {tokens inside : List Token} {base key : Expr} :
      Derives .access tokens base → Derives .conditional inside key →
      Derives .access (tokens ++ .symbol .openBracket :: (inside ++ [.symbol .closeBracket]))
        (.index base key)
  /-- Arguments in parentheses after an expression. -/
  | call {tokens inside : List Token} {callee : Expr} {arguments : List (List Token × Expr)} :
      Derives .access tokens callee →
      (∀ argument ∈ arguments, Derives .conditional argument.1 argument.2) →
      Listed (arguments.map Prod.fst) inside →
      Derives .access (tokens ++ .symbol .openParen :: (inside ++ [.symbol .closeParen]))
        (.call callee (arguments.map Prod.snd))
  | number (amount : Float) : Derives .primary [.number amount] (.literal (.number amount))
  | string (text : String) : Derives .primary [.string text] (.literal (.string text))
  | keyword {word : String} {value : Value} :
      (word, value) ∈ keywords → Derives .primary [.word word] (.literal value)
  | name {word : String} : word ∉ reserved → Derives .primary [.word word] (.ident word)
  | parentheses {tokens : List Token} {value : Expr} :
      Derives .conditional tokens value →
      Derives .primary (.symbol .openParen :: (tokens ++ [.symbol .closeParen])) value
  | array {inside : List Token} {items : List (List Token × Expr)} :
      (∀ item ∈ items, Derives .conditional item.1 item.2) →
      Listed (items.map Prod.fst) inside →
      Derives .primary (.symbol .openBracket :: (inside ++ [.symbol .closeBracket]))
        (.array (items.map Prod.snd))
  | object {inside : List Token} {entries : List Entry} :
      (∀ entry ∈ entries, Keyed entry.key entry.property) →
      (∀ entry ∈ entries, Derives .conditional entry.tokens entry.value) →
      Listed (entries.map Entry.written) inside →
      Derives .primary (.symbol .openBrace :: (inside ++ [.symbol .closeBrace]))
        (.object (entries.map fun entry => (entry.property, entry.value)))

/-- **An expression of a level is one of every looser level.** -/
theorem Derives.loosen {level looser : Level} {tokens : List Token} {value : Expr}
    (derives : Derives level tokens value) (below : looser.rank ≤ level.rank) :
    Derives looser tokens value := by
  induction distance : level.rank - looser.rank generalizing looser with
  | zero =>
    have same : looser = level := by
      have ranks : looser.rank = level.rank := by omega
      cases looser <;> cases level <;> first | rfl | cases ranks
    rw [same]
    exact derives
  | succ distance ih =>
    have step : looser.next.rank = looser.rank + 1 ∨ looser = .primary := by
      cases looser <;> simp [Level.next, Level.rank]
    rcases step with step | rfl
    · exact .tighter (ih (by omega) (by omega))
    · have bound : level.rank ≤ Level.primary.rank := by cases level <;> decide
      omega

/-! ### First tokens -/

/-- The marks that an expression can start with. -/
def openingMarks : List Punctuation :=
  [.openParen, .openBracket, .openBrace, .bang, .minus, .plus]

/-- Whether a token can start an expression. -/
def canOpen : Token → Prop
  | .symbol mark => mark ∈ openingMarks
  | _ => True

/-- **Every expression starts with a token that can start one**; where no operator stands before it,
this is no such operator. -/
theorem Derives.head {level : Level} {tokens : List Token} {value : Expr}
    (derives : Derives level tokens value) :
    ∃ first rest, tokens = first :: rest ∧ canOpen first ∧
      (Level.access.rank ≤ level.rank → unaryOperator? first = none) := by
  induction derives with
  | @tighter level tokens value _ ih =>
    obtain ⟨first, rest, rfl, opens, plain⟩ := ih
    exact ⟨first, rest, rfl, opens, fun tight => plain (Nat.le_trans tight level.rank_le_next)⟩
  | conditional _ _ _ ih _ _ =>
    obtain ⟨first, rest, rfl, opens, _⟩ := ih
    exact ⟨first, _, rfl, opens, fun tight => absurd tight (by decide)⟩
  | @joined level operator first second left right member _ _ ih _ =>
    obtain ⟨first, rest, rfl, opens, plain⟩ := ih
    exact ⟨first, _, rfl, opens, plain⟩
  | @unary op _ _ _ _ =>
    refine ⟨unaryToken op, _, rfl, ?_, fun tight => absurd tight (by decide)⟩
    cases op <;> simp [unaryToken, canOpen, openingMarks]
  | member property _ ih =>
    obtain ⟨first, rest, rfl, opens, plain⟩ := ih
    exact ⟨first, _, rfl, opens, plain⟩
  | index _ _ ih _ =>
    obtain ⟨first, rest, rfl, opens, plain⟩ := ih
    exact ⟨first, _, rfl, opens, plain⟩
  | call _ _ _ ih _ =>
    obtain ⟨first, rest, rfl, opens, plain⟩ := ih
    exact ⟨first, _, rfl, opens, plain⟩
  | number amount => exact ⟨_, _, rfl, trivial, fun _ => rfl⟩
  | string text => exact ⟨_, _, rfl, trivial, fun _ => rfl⟩
  | @keyword word value member =>
    refine ⟨_, _, rfl, trivial, fun _ => ?_⟩
    unfold unaryOperator?
    simp [keywords] at member
    rcases member with ⟨rfl, _⟩ | ⟨rfl, _⟩ | ⟨rfl, _⟩ | ⟨rfl, _⟩ <;> rfl
  | @name word free =>
    refine ⟨_, _, rfl, trivial, fun _ => ?_⟩
    have other : word ≠ "typeof" := fun same => free (same ▸ List.mem_cons_self)
    unfold unaryOperator?
    split <;> simp_all
  | parentheses _ _ => exact ⟨_, _, rfl, by simp [canOpen, openingMarks], fun _ => rfl⟩
  | array _ _ _ => exact ⟨_, _, rfl, by simp [canOpen, openingMarks], fun _ => rfl⟩
  | object _ _ _ _ => exact ⟨_, _, rfl, by simp [canOpen, openingMarks], fun _ => rfl⟩

/-! ### Operators -/

theorem ofMark?_eq_some {mark : Punctuation} {operator : Operator} :
    Operator.ofMark? mark = some operator ↔ mark = operator.mark := by
  constructor
  · intro found
    cases mark <;> cases found <;> rfl
  · rintro rfl
    cases operator with
    | binary op => cases op <;> rfl
    | logical op => cases op <;> rfl

/-- **The operators found at a depth** are those of the level that is read there. -/
theorem operator?_eq_some {depth : Nat} {token : Token} {operator : Operator} :
    operator? depth token = some operator ↔
      operator ∈ (Level.atDepth depth).operators ∧ token = .symbol operator.mark := by
  have level : operator.level = depth ↔ operator ∈ (Level.atDepth depth).operators := by
    match depth with
    | 0 | 1 | 2 | 3 | 4 | 5 =>
      cases operator with
      | binary op => cases op <;> decide
      | logical op => cases op <;> decide
    | depth + 6 =>
      have below : operator.level < 6 := by
        cases operator with
        | binary op => cases op <;> decide
        | logical op => cases op <;> decide
      have none : (Level.atDepth (depth + 6)).operators = [] := rfl
      rw [none]
      simp
      omega
  cases token with
  | symbol mark =>
    rw [operator?, Option.filter_eq_some_iff, beq_iff_eq, ofMark?_eq_some, level]
    simp [and_comm]
  | number _ => simp [operator?]
  | string _ => simp [operator?]
  | word _ => simp [operator?]

theorem unaryOperator?_eq_some {token : Token} {op : UnaryOp} :
    unaryOperator? token = some op ↔ token = unaryToken op := by
  constructor
  · intro found
    unfold unaryOperator? at found
    split at found <;> cases found <;> rfl
  · rintro rfl
    cases op <;> rfl

/-- A word other than the operator is the value of a keyword, or a name. -/
theorem derives_ofWord {word : String} (other : word ≠ "typeof") :
    Derives .primary [.word word] (ofWord word) := by
  by_cases keyword : word ∈ keywords.map Prod.fst
  · simp only [keywords, List.map_cons, List.map_nil, List.mem_cons, List.not_mem_nil,
      or_false] at keyword
    rcases keyword with rfl | rfl | rfl | rfl <;> exact .keyword (by simp [keywords])
  · have name : ofWord word = .ident word := by
      simp only [keywords, List.map_cons, List.map_nil, List.mem_cons, List.not_mem_nil,
        or_false, not_or] at keyword
      simp [ofWord, keyword]
    rw [name]
    refine .name fun inside => ?_
    rcases List.mem_cons.mp inside with same | inside
    · exact other same
    · exact keyword inside

end DataBind.Expr
