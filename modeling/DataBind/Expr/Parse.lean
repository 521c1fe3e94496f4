/-
**From tokens to syntax trees.**

The grammar has the conditional at its loosest, then six levels of left-associative operators, the
operators before an operand, the postfix forms, and the primary expressions. Lists of arguments,
items and entries may end with a comma. An error is reported at the token that does not fit, and
at the end of the source when there is none.

* `ofTokens_nil`: without tokens the source ends too early.
-/

import DataBind.Expr.Basic
import DataBind.Expr.Tokenize

namespace DataBind.Expr

open DataBind.Text

/-- What a reader of tokens gives: a part of the expression and fewer tokens, or an error. -/
abbrev Parsed (α : Type) (length : Nat) : Type :=
  Except SyntaxError (Taken Spanned α length)

/-- Takes one mark and gives its offset; `finish` is the length of the source. -/
def takeMark (finish : Nat) (wanted : Punctuation) :
    (tokens : List Spanned) → Parsed Nat tokens.length
  | [] => .error ⟨.expectedMark wanted none, finish⟩
  | ⟨token, offset⟩ :: rest =>
    if token.isMark wanted then .ok ⟨offset, rest, Nat.lt_succ_self _⟩
    else .error ⟨.expectedMark wanted (some token), offset⟩

mutual

/-- Reads an expression of the loosest kind. -/
def readConditional (finish : Nat) (tokens : List Spanned) : Parsed Expr tokens.length := do
  let test ← readLevel finish 0 tokens
  match takeMark finish .question test.rest with
  | .error _ => return test
  | .ok asked =>
    let yes ← readConditional finish asked.rest
    let colon ← takeMark finish .colon yes.rest
    let no ← readConditional finish colon.rest
    return (test.after (asked.after (yes.after (colon.after no)))).map
      (.conditional test.value yes.value)
termination_by (tokens.length, 10)
decreasing_by
  · exact Prod.Lex.right _ (by decide)
  · exact Prod.Lex.left _ _ (asked.lt_of_lt test.shorter)
  · exact Prod.Lex.left _ _ (colon.lt_of_lt (yes.lt_of_lt (asked.lt_of_lt test.shorter)))

/-- Reads operands joined by the operators of a level and of tighter ones. -/
def readLevel (finish level : Nat) (tokens : List Spanned) : Parsed Expr tokens.length := do
  if level < 6 then
    let left ← readLevel finish (level + 1) tokens
    let whole ← readOperands finish level left.value left.rest
    return left.afterMaybe whole
  else readUnary finish tokens
termination_by (tokens.length, 3 + (6 - level))
decreasing_by
  · exact Prod.Lex.right _ (by omega)
  · exact Prod.Lex.left _ _ left.shorter
  · exact Prod.Lex.right _ (by omega)

/-- Reads the further operands of a level after its left operand. -/
def readOperands (finish level : Nat) (left : Expr) (tokens : List Spanned) :
    Parsed Expr (tokens.length + 1) :=
  match tokens with
  | [] => .ok ⟨left, [], Nat.lt_succ_self _⟩
  | ⟨token, offset⟩ :: rest =>
    match operator? level token with
    | none => .ok ⟨left, ⟨token, offset⟩ :: rest, Nat.lt_succ_self _⟩
    | some operator => do
      let right ← readLevel finish (level + 1) rest
      let whole ← readOperands finish level (operator.apply left right.value) right.rest
      return (right.afterMaybe whole).within (Nat.le_add_right _ 2)
termination_by (tokens.length, 0)
decreasing_by
  · exact Prod.Lex.left _ _ (Nat.lt_succ_self _)
  · exact Prod.Lex.left _ _ (right.lt_of_lt (Nat.lt_succ_self _))

/-- Reads an operand with the operators before it. -/
def readUnary (finish : Nat) (tokens : List Spanned) : Parsed Expr tokens.length :=
  match tokens with
  | [] => readPostfix finish []
  | ⟨token, offset⟩ :: rest =>
    match unaryOperator? token with
    | some op => do
      let operand ← readUnary finish rest
      return (operand.map (.unary op)).within (Nat.le_succ _)
    | none => readPostfix finish (⟨token, offset⟩ :: rest)
termination_by (tokens.length, 2)
decreasing_by
  · exact Prod.Lex.right _ (by decide)
  · exact Prod.Lex.left _ _ (Nat.lt_succ_self _)
  · exact Prod.Lex.right _ (by decide)

/-- Reads a primary expression with the accesses and calls after it. -/
def readPostfix (finish : Nat) (tokens : List Spanned) : Parsed Expr tokens.length := do
  let base ← readPrimary finish tokens
  let whole ← readAccesses finish base.value base.rest
  return base.afterMaybe whole
termination_by (tokens.length, 1)
decreasing_by
  · exact Prod.Lex.right _ (by decide)
  · exact Prod.Lex.left _ _ base.shorter

/-- Reads the accesses and calls after an expression. A point that ends the source is itself the
place of the error. -/
def readAccesses (finish : Nat) (base : Expr) (tokens : List Spanned) :
    Parsed Expr (tokens.length + 1) :=
  match tokens with
  | ⟨.symbol .dot, _⟩ :: ⟨.word property, _⟩ :: rest => do
    let whole ← readAccesses finish (.member base property) rest
    return whole.within (Nat.le_add_right _ 2)
  | ⟨.symbol .dot, _⟩ :: ⟨_, offset⟩ :: _ => .error ⟨.expectedPropertyName, offset⟩
  | [⟨.symbol .dot, offset⟩] => .error ⟨.expectedPropertyName, offset⟩
  | ⟨.symbol .openBracket, _⟩ :: rest => do
    let key ← readConditional finish rest
    let close ← takeMark finish .closeBracket key.rest
    let whole ← readAccesses finish (.index base key.value) close.rest
    return (key.after (close.afterMaybe whole)).within (Nat.le_add_right _ 2)
  | ⟨.symbol .openParen, _⟩ :: rest => do
    let arguments ← readItems finish .closeParen rest
    let whole ← readAccesses finish (.call base arguments.value) arguments.rest
    return (arguments.afterMaybe whole).within (Nat.le_add_right _ 2)
  | tokens => .ok ⟨base, tokens, Nat.lt_succ_self _⟩
termination_by (tokens.length, 0)
decreasing_by
  · exact Prod.Lex.left _ _ (Nat.lt_succ_of_lt (Nat.lt_succ_self _))
  · exact Prod.Lex.left _ _ (Nat.lt_succ_self _)
  · exact Prod.Lex.left _ _ (close.lt_of_lt (key.lt_of_lt (Nat.lt_succ_self _)))
  · exact Prod.Lex.left _ _ (Nat.lt_succ_self _)
  · exact Prod.Lex.left _ _ (arguments.lt_of_lt (Nat.lt_succ_self _))

/-- Reads expressions separated by commas up to a closing mark. -/
def readItems (finish : Nat) (close : Punctuation) (tokens : List Spanned) :
    Parsed (List Expr) tokens.length :=
  match takeMark finish close tokens with
  | .ok closed => .ok (closed.map fun _ => [])
  | .error _ => do
    let item ← readConditional finish tokens
    match takeMark finish .comma item.rest with
    | .ok comma =>
      let others ← readItems finish close comma.rest
      return (item.after (comma.after others)).map (item.value :: ·)
    | .error _ =>
      let closed ← takeMark finish close item.rest
      return (item.after closed).map fun _ => [item.value]
termination_by (tokens.length, 11)
decreasing_by
  · exact Prod.Lex.right _ (by decide)
  · exact Prod.Lex.left _ _ (comma.lt_of_lt item.shorter)

/-- Reads the entries of an object up to its closing brace; `before` is the offset of the token
before them, where a missing entry at the end of the source is reported. -/
def readEntries (finish before : Nat) (tokens : List Spanned) :
    Parsed (List (String × Expr)) tokens.length :=
  match tokens with
  | [] => .error ⟨.expectedPropertyKey, before⟩
  | ⟨.symbol .closeBrace, _⟩ :: rest => .ok ⟨[], rest, Nat.lt_succ_self _⟩
  | ⟨token, offset⟩ :: rest =>
    match key? token with
    | none => .error ⟨.expectedPropertyKey, offset⟩
    | some key => do
      let colon ← takeMark finish .colon rest
      let value ← readConditional finish colon.rest
      match takeMark finish .comma value.rest with
      | .ok comma =>
        let others ← readEntries finish comma.value comma.rest
        return ((colon.after (value.after (comma.after others))).map
          ((key, value.value) :: ·)).within (Nat.le_succ _)
      | .error _ =>
        let closed ← takeMark finish .closeBrace value.rest
        return ((colon.after (value.after closed)).map fun _ => [(key, value.value)]).within
          (Nat.le_succ _)
termination_by (tokens.length, 11)
decreasing_by
  · exact Prod.Lex.left _ _ (colon.lt_of_lt (Nat.lt_succ_self _))
  · exact Prod.Lex.left _ _
      (comma.lt_of_lt (value.lt_of_lt (colon.lt_of_lt (Nat.lt_succ_self _))))

/-- Reads a literal, a name, or an expression in brackets of some kind. -/
def readPrimary (finish : Nat) (tokens : List Spanned) : Parsed Expr tokens.length :=
  match tokens with
  | [] => .error ⟨.unexpectedEnd, finish⟩
  | ⟨.number amount, _⟩ :: rest => .ok ⟨.literal (.number amount), rest, Nat.lt_succ_self _⟩
  | ⟨.string text, _⟩ :: rest => .ok ⟨.literal (.string text), rest, Nat.lt_succ_self _⟩
  | ⟨.word word, _⟩ :: rest => .ok ⟨ofWord word, rest, Nat.lt_succ_self _⟩
  | ⟨.symbol .openParen, _⟩ :: rest => do
    let inner ← readConditional finish rest
    let closed ← takeMark finish .closeParen inner.rest
    return ((inner.after closed).map fun _ => inner.value).within (Nat.le_succ _)
  | ⟨.symbol .openBracket, _⟩ :: rest => do
    let items ← readItems finish .closeBracket rest
    return (items.map .array).within (Nat.le_succ _)
  | ⟨.symbol .openBrace, offset⟩ :: rest => do
    let entries ← readEntries finish offset rest
    return (entries.map .object).within (Nat.le_succ _)
  | ⟨token, offset⟩ :: _ => .error ⟨.unexpectedToken token, offset⟩
termination_by (tokens.length, 0)
decreasing_by
  · exact Prod.Lex.left _ _ (Nat.lt_succ_self _)
  · exact Prod.Lex.left _ _ (Nat.lt_succ_self _)
  · exact Prod.Lex.left _ _ (Nat.lt_succ_self _)

end

/-- The expression that all of the tokens make up; `finish` is the length of the source. -/
def ofTokens (finish : Nat) (tokens : List Spanned) : Except SyntaxError Expr := do
  let whole ← readConditional finish tokens
  match whole.rest with
  | [] => return whole.value
  | ⟨token, offset⟩ :: _ => throw ⟨.unexpectedToken token, offset⟩

/-- The expression of a source text. -/
def parse (source : String) : Except SyntaxError Expr := do
  let tokens ← tokenize source
  ofTokens (byteLength source.toList) tokens

/-- Without tokens the source ends too early. -/
theorem ofTokens_nil (finish : Nat) :
    ofTokens finish [] = .error ⟨.unexpectedEnd, finish⟩ := by
  have primary : readPostfix finish [] = .error ⟨.unexpectedEnd, finish⟩ := by
    rw [readPostfix, readPrimary]
    rfl
  have unary : readUnary finish [] = .error ⟨.unexpectedEnd, finish⟩ := by
    rw [readUnary, primary]
  have levels : ∀ above level, level + above = 6 →
      readLevel finish level [] = .error ⟨.unexpectedEnd, finish⟩ := by
    intro above
    induction above with
    | zero =>
      intro level top
      rw [readLevel, if_neg (by omega), unary]
    | succ above ih =>
      intro level top
      rw [readLevel, if_pos (by omega), ih (level + 1) (by omega)]
      rfl
  have whole : readConditional finish [] = .error ⟨.unexpectedEnd, finish⟩ := by
    rw [readConditional, levels 6 0 rfl]
    rfl
  rw [ofTokens, whole]
  rfl

end DataBind.Expr
