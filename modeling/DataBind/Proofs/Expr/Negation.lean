/-
**Negation by parentheses.**

An expression is negated by its text between `!(` and `)`. The parenthesis that opens is closed by
the first closing one before which an expression ends. Where the text itself has such a parenthesis,
it escapes: what is negated is the part before.

* `exists_closed_of_derives`: an expression that starts with a parenthesis starts with an expression
  in parentheses;
* `Escapes`: the texts that close the parenthesis before their end;
* `parse_negated`: a negation is an expression if and only if its text is one or escapes.
-/

import DataBind.Proofs.Expr.Closing
import DataBind.Expr.Source

namespace DataBind.Expr

open DataBind.Text

variable {level : Level} {tokens tail : List Token} {value : Expr}

/-! ### What an expression starts with -/

/-- The tokens at the start of an expression: an operator with its operand, an expression in
parentheses, or any others. -/
inductive Leading : List Token → Prop
  | operator (op : UnaryOp) {inner : List Token} {operand : Expr} :
      Derives .unary inner operand → Leading (unaryToken op :: inner)
  | parentheses {inner : List Token} {operand : Expr} :
      Derives .conditional inner operand →
      Leading (.symbol .openParen :: (inner ++ [.symbol .closeParen]))
  | other {token : Token} (rest : List Token) :
      token ≠ .symbol .openParen → token ≠ .symbol .bang → Leading (token :: rest)

/-- **Every expression starts** in one of these ways. -/
theorem leading_of_derives (derives : Derives level tokens value) :
    ∃ front back, tokens = front ++ back ∧ Leading front := by
  have whole : ∀ {front}, Leading front → ∃ start back, front = start ++ back ∧ Leading start :=
    fun leading => ⟨_, [], (List.append_nil _).symm, leading⟩
  have longer : ∀ {first : List Token} (rest : List Token),
      (∃ front back, first = front ++ back ∧ Leading front) →
      ∃ front back, first ++ rest = front ++ back ∧ Leading front := by
    rintro first rest ⟨front, back, rfl, leading⟩
    exact ⟨front, back ++ rest, List.append_assoc _ _ _, leading⟩
  induction derives with
  | tighter _ ih => exact ih
  | conditional _ _ _ ih _ _ => exact longer _ ih
  | joined _ _ _ ih _ => exact longer _ ih
  | @unary op _ _ derives _ => exact whole (.operator op derives)
  | member _ _ ih => exact longer _ ih
  | index _ _ ih _ => exact longer _ ih
  | call _ _ _ ih _ => exact longer _ ih
  | number | string | keyword | name => exact whole (.other [] nofun nofun)
  | parentheses derives _ => exact whole (.parentheses derives)
  | array | object => exact whole (.other _ nofun nofun)

/-- **A parenthesis at the start** is closed behind an expression. -/
theorem exists_closed_of_derives (derives : Derives level (.symbol .openParen :: tail) value) :
    ∃ first rest operand, tail = first ++ .symbol .closeParen :: rest ∧
      Derives .conditional first operand := by
  obtain ⟨front, back, same, leading⟩ := leading_of_derives derives
  cases leading with
  | operator op _ => cases op <;> cases (List.cons.inj same).1
  | @parentheses inner operand derives =>
    exact ⟨inner, back, operand, (List.cons.inj same).2.trans (List.append_assoc _ _ _), derives⟩
  | other _ different _ => exact absurd (List.cons.inj same).1.symm different

/-- **What is negated at the start** is an operand. -/
theorem exists_operand_of_derives (derives : Derives level (.symbol .bang :: tail) value) :
    ∃ front back operand, tail = front ++ back ∧ Derives .unary front operand := by
  obtain ⟨front, back, same, leading⟩ := leading_of_derives derives
  cases leading with
  | @operator op inner operand derives =>
    exact ⟨inner, back, operand, (List.cons.inj same).2, derives⟩
  | parentheses _ => cases (List.cons.inj same).1
  | other _ _ different => exact absurd (List.cons.inj same).1.symm different

/-! ### Negations -/

/-- The negation of an expression. -/
theorem derives_negation (derives : Derives .conditional tokens value) :
    Derives .conditional (negation tokens) (.unary .not value) := by
  have operand : Derives .unary (.symbol .openParen :: (tokens ++ [.symbol .closeParen])) value :=
    (Derives.parentheses derives).loosen (by decide)
  have whole : Derives .unary (unaryToken .not :: .symbol .openParen ::
      (tokens ++ [.symbol .closeParen])) (.unary .not value) := .unary operand
  exact whole.loosen (by decide)

/-- Tokens of which the first part is an expression that a parenthesis closes, though the negation
of all of them is an expression. -/
def Unclosed (tokens : List Token) : Prop :=
  ∃ first rest operand value, tokens = first ++ .symbol .closeParen :: rest ∧
    Derives .conditional first operand ∧ Derives .conditional (negation tokens) value

/-- **The negation of tokens is an expression** if they are one, or do not stay inside of the
parentheses. -/
theorem derives_negation_iff :
    (∃ value, Derives .conditional (negation tokens) value) ↔
      (∃ value, Derives .conditional tokens value) ∨ Unclosed tokens := by
  constructor
  · rintro ⟨value, derives⟩
    obtain ⟨front, back, operand, same, unary⟩ := exists_operand_of_derives derives
    obtain ⟨_, rest, rfl, _⟩ := unary.head
    obtain ⟨rfl, tails⟩ := List.cons.inj same
    obtain ⟨first, after, inner, rfl, closed⟩ := exists_closed_of_derives unary
    have same := tails.trans (List.append_assoc _ _ _)
    rw [List.cons_append] at same
    -- the parenthesis that closes is the last token, or one of those before
    rcases List.eq_nil_or_concat (after ++ back) with none | ⟨others, last, more⟩
    · rw [none] at same
      cases List.append_cancel_right same
      exact Or.inl ⟨inner, closed⟩
    · rw [more, List.concat_eq_append, ← List.cons_append, ← List.append_assoc] at same
      obtain ⟨rfl, _⟩ := List.append_inj' same rfl
      exact Or.inr ⟨first, others, inner, value, rfl, closed, derives⟩
  · rintro (⟨value, derives⟩ | ⟨_, _, _, value, _, _, derives⟩)
    · exact ⟨_, derives_negation derives⟩
    · exact ⟨value, derives⟩

/-- The texts whose tokens do not stay inside of the parentheses of a negation. -/
def Escapes (text : List Char) : Prop :=
  ∃ tokens, tokensOf? text = some tokens ∧ Unclosed tokens

end DataBind.Expr

namespace DataBind.Expression

open DataBind.Text

/-- What is parsed for the negation of a text. -/
theorem tree_parseNegated (text : String) :
    (parseNegated text).tree = Expr.parse (String.ofList (Expr.negated (trim text.toList))) := by
  have characters : ("!(" ++ trimmed text ++ ")").toList = Expr.negated (trim text.toList) := by
    simp only [String.toList_append, trimmed, String.toList_ofList]
    rfl
  have whole : trimmed ("!(" ++ trimmed text ++ ")") =
      String.ofList (Expr.negated (trim text.toList)) := by
    rw [trimmed, characters]
    exact congrArg String.ofList (trim_enclosed (by decide) (by decide) ('(' :: trim text.toList))
  show Expr.parse (trimmed ("!(" ++ trimmed text ++ ")")) = _
  rw [whole]

theorem tree_parse (text : String) :
    (parse text).tree = Expr.parse (String.ofList (trim text.toList)) := by
  show Expr.parse (trimmed text) = _
  rw [trimmed]

/-- **An expression is negated as a whole.** -/
theorem parseNegated_of_parse {text : String} {tree : Expr} (parsed : (parse text).tree = .ok tree) :
    (parseNegated text).tree = .ok (.unary .not tree) := by
  rw [tree_parse, Expr.parse_eq_ok_iff, String.toList_ofList] at parsed
  obtain ⟨tokens, read, derives⟩ := parsed
  rw [tree_parseNegated, Expr.parse_eq_ok_iff, String.toList_ofList, Expr.tokensOf?_negated, read]
  exact ⟨_, rfl, Expr.derives_negation derives⟩

/-- **A negation parses** if and only if its text parses or escapes. -/
theorem exists_parseNegated_iff (text : String) :
    (∃ tree, (parseNegated text).tree = .ok tree) ↔
      (∃ tree, (parse text).tree = .ok tree) ∨ Expr.Escapes (trim text.toList) := by
  simp only [tree_parse, tree_parseNegated, Expr.parse_eq_ok_iff, String.toList_ofList,
    Expr.tokensOf?_negated, Option.map_eq_some_iff]
  constructor
  · rintro ⟨tree, _, ⟨tokens, read, rfl⟩, derives⟩
    rcases Expr.derives_negation_iff.mp ⟨tree, derives⟩ with ⟨value, derives⟩ | unclosed
    · exact Or.inl ⟨value, tokens, read, derives⟩
    · exact Or.inr ⟨tokens, read, unclosed⟩
  · rintro (⟨value, tokens, read, derives⟩ | ⟨tokens, read, unclosed⟩)
    · exact ⟨_, _, ⟨tokens, read, rfl⟩, Expr.derives_negation derives⟩
    · obtain ⟨tree, derives⟩ := Expr.derives_negation_iff.mpr (Or.inr unclosed)
      exact ⟨tree, _, ⟨tokens, read, rfl⟩, derives⟩

end DataBind.Expression
