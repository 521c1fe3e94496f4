/-
**Brackets and commas among the tokens of an expression.**

* `Matched`: tokens whose brackets match, with commas only inside of brackets (or also outside,
  where the tokens stand in brackets themselves);
* `matched_of_listed`: parts that match, separated by commas, match in brackets;
* `matched_of_derives`: the tokens of an expression match.
-/

import DataBind.Proofs.Expr.Grammar

namespace DataBind.Expr

/-- The marks that open brackets, each with the one that closes it. -/
def bracketMarks : List (Punctuation × Punctuation) :=
  [(.openParen, .closeParen), (.openBracket, .closeBracket), (.openBrace, .closeBrace)]

/-- Whether a token is neither a bracket nor a comma. -/
def Token.isPlain : Token → Bool
  | .symbol mark =>
    mark != .comma && bracketMarks.all fun pair => mark != pair.1 && mark != pair.2
  | _ => true

/-- Tokens whose brackets match. Commas outside of them are allowed where the tokens stand in
brackets themselves. -/
inductive Matched : Bool → List Token → Prop
  | nil (inside : Bool) : Matched inside []
  | plain {inside : Bool} {token : Token} : token.isPlain = true → Matched inside [token]
  | comma : Matched true [.symbol .comma]
  | append {inside : Bool} {first second : List Token} :
      Matched inside first → Matched inside second → Matched inside (first ++ second)
  | group {inside : Bool} {opener closer : Punctuation} {body : List Token} :
      (opener, closer) ∈ bracketMarks → Matched true body →
      Matched inside (.symbol opener :: (body ++ [.symbol closer]))

namespace Matched

variable {inside : Bool} {tokens first second : List Token}

/-- What matches without commas outside of brackets matches in brackets. -/
theorem inner (matched : Matched inside tokens) : Matched true tokens := by
  induction matched with
  | nil => exact .nil true
  | plain plain => exact .plain plain
  | comma => exact .comma
  | append _ _ firstIh secondIh => exact .append firstIh secondIh
  | group pair body _ => exact .group pair body

/-- A token that is neither a bracket nor a comma can stand before. -/
theorem cons {token : Token} (plain : token.isPlain = true) (matched : Matched inside tokens) :
    Matched inside (token :: tokens) :=
  (Matched.plain plain).append matched

/-- A token that is neither a bracket nor a comma can stand between. -/
theorem around {token : Token} (front : Matched inside first) (plain : token.isPlain = true)
    (back : Matched inside second) : Matched inside (first ++ token :: second) :=
  .append front (back.cons plain)

end Matched

/-- **Parts separated by commas** can stand in brackets. -/
theorem matched_of_listed {parts : List (List Token)} {tokens : List Token}
    (listed : Listed parts tokens) (matched : ∀ part ∈ parts, Matched false part) :
    Matched true tokens := by
  induction listed with
  | empty => exact .nil true
  | last part => exact (matched part List.mem_cons_self).inner
  | more _ ih =>
    obtain ⟨first, later⟩ := List.forall_mem_cons.mp matched
    exact first.inner.append (Matched.comma.append (ih later))

theorem isPlain_operator (operator : Operator) : (Token.symbol operator.mark).isPlain = true := by
  cases operator with
  | binary op => cases op <;> decide
  | logical op => cases op <;> decide

theorem isPlain_of_keyed {token : Token} {property : String} (keyed : Keyed token property) :
    token.isPlain = true := by
  cases keyed <;> rfl

/-- **The brackets of an expression match**, and its commas stand inside of them. -/
theorem matched_of_derives {level : Level} {tokens : List Token} {value : Expr}
    (derives : Derives level tokens value) : Matched false tokens := by
  induction derives with
  | tighter _ ih => exact ih
  | conditional _ _ _ askedIh chosenIh otherIh =>
    exact askedIh.around (by decide) (chosenIh.around (by decide) otherIh)
  | @joined _ operator _ _ _ _ _ _ _ firstIh secondIh =>
    exact firstIh.around (isPlain_operator operator) secondIh
  | @unary op _ _ _ ih => exact ih.cons (by cases op <;> rfl)
  | member property _ ih => exact ih.append (.cons (by decide) (.plain rfl))
  | index _ _ ih keyIh => exact ih.append (.group (by decide) keyIh.inner)
  | call _ _ listed ih argumentsIh =>
    refine ih.append (.group (by decide) (matched_of_listed listed fun part member => ?_))
    obtain ⟨argument, found, rfl⟩ := List.mem_map.mp member
    exact argumentsIh argument found
  | number | string | keyword | name => exact .plain rfl
  | parentheses _ ih => exact .group (by decide) ih.inner
  | array _ listed ih =>
    refine .group (by decide) (matched_of_listed listed fun part member => ?_)
    obtain ⟨item, found, rfl⟩ := List.mem_map.mp member
    exact ih item found
  | object keyed _ listed ih =>
    refine .group (by decide) (matched_of_listed listed fun part member => ?_)
    obtain ⟨entry, found, rfl⟩ := List.mem_map.mp member
    exact .cons (isPlain_of_keyed (keyed entry found)) (.cons (by decide) (ih entry found))

end DataBind.Expr
