/-
**Places inside of an expression.**

Where a reading of tokens from the left has come to is known by two things: what is due next, and
which brackets and choices are open, the innermost first. A token leads from one place to the next
or is refused, and no later token is looked at. From every place there is a way to the end of an
expression.

* `Place.step`: where a token leads;
* `Place.run`: where tokens lead, one after the other;
* `Place.exists_ending`: the tokens that are missing at a place.
-/

import DataBind.Proofs.Expr.Parsing

namespace DataBind.Expr

/-! ### Places -/

/-- What can be open at a place: brackets of a kind, or the first choice of a conditional. -/
inductive Frame where
  | parentheses | arguments | items | index | entries | choice
  deriving DecidableEq

/-- The mark that closes what is open. -/
def Frame.closer : Frame → Punctuation
  | .parentheses | .arguments => .closeParen
  | .items | .index => .closeBracket
  | .entries => .closeBrace
  | .choice => .colon

/-- What can be due at a place. -/
inductive Due where
  /-- An expression. -/
  | operand
  /-- An item of a list, or the end of the list. -/
  | item
  /-- The key of an entry, or the end of the entries. -/
  | key
  /-- The colon behind a key. -/
  | colon
  /-- The name of a property. -/
  | name
  /-- Nothing: an expression has been read, and may go on. -/
  | nothing
  deriving DecidableEq

/-- A place inside of an expression: what is due, and what is open. -/
structure Place where
  due : Due
  frames : List Frame

namespace Place

/-- The place before an expression. -/
def start : Place :=
  ⟨.operand, []⟩

/-- The place behind a whole expression. -/
def final : Place :=
  ⟨.nothing, []⟩

/-- Where something is due, an expression has not ended. -/
theorem ne_final_of_due {due : Due} (other : due ≠ .nothing) (frames : List Frame) :
    (⟨due, frames⟩ : Place) ≠ .final :=
  fun same => other (congrArg Place.due same)

/-- Where something is open, an expression has not ended. -/
theorem ne_final_of_open (due : Due) (frame : Frame) (frames : List Frame) :
    (⟨due, frame :: frames⟩ : Place) ≠ .final :=
  fun same => List.cons_ne_nil frame frames (congrArg Place.frames same)

/-- Where the first token of an expression leads. -/
def opened (frames : List Frame) : Token → Option Place
  | .symbol .openParen => some ⟨.operand, .parentheses :: frames⟩
  | .symbol .openBracket => some ⟨.item, .items :: frames⟩
  | .symbol .openBrace => some ⟨.key, .entries :: frames⟩
  | token =>
    if (unaryOperator? token).isSome then some ⟨.operand, frames⟩
    else (atom? token).map fun _ => ⟨.nothing, frames⟩

/-- Where a mark leads that closes what is open. -/
def closed (mark : Punctuation) : List Frame → Option Place
  | [] => none
  | frame :: frames =>
    if mark = frame.closer then some ⟨if frame = .choice then .operand else .nothing, frames⟩
    else none

/-- Where a comma leads. -/
def separated : List Frame → Option Place
  | .arguments :: frames => some ⟨.item, .arguments :: frames⟩
  | .items :: frames => some ⟨.item, .items :: frames⟩
  | .entries :: frames => some ⟨.key, .entries :: frames⟩
  | _ => none

/-- Where a mark leads that stands behind an expression. -/
def continued (frames : List Frame) : Punctuation → Option Place
  | .dot => some ⟨.name, frames⟩
  | .openBracket => some ⟨.operand, .index :: frames⟩
  | .openParen => some ⟨.item, .arguments :: frames⟩
  | .question => some ⟨.operand, .choice :: frames⟩
  | .comma => separated frames
  | mark => if (Operator.ofMark? mark).isSome then some ⟨.operand, frames⟩ else closed mark frames

/-- **Where a token leads** from a place. -/
def step : Place → Token → Option Place
  | ⟨.operand, frames⟩, token => opened frames token
  | ⟨.item, frames⟩, .symbol mark => closed mark frames <|> opened frames (.symbol mark)
  | ⟨.item, frames⟩, token => opened frames token
  | ⟨.key, frames⟩, .symbol .closeBrace => closed .closeBrace frames
  | ⟨.key, frames⟩, token => (key? token).map fun _ => ⟨.colon, frames⟩
  | ⟨.colon, frames⟩, .symbol .colon => some ⟨.operand, frames⟩
  | ⟨.name, frames⟩, .word _ => some ⟨.nothing, frames⟩
  | ⟨.nothing, frames⟩, .symbol mark => continued frames mark
  | _, _ => none

/-- Where tokens lead from a place, one after the other. -/
def run (place : Place) (tokens : List Token) : Option Place :=
  tokens.foldlM step place

theorem run_append (place : Place) (first second : List Token) :
    place.run (first ++ second) = (place.run first).bind fun middle => middle.run second :=
  List.foldlM_append

theorem run_cons (place : Place) (token : Token) (tokens : List Token) :
    place.run (token :: tokens) = (place.step token).bind fun middle => middle.run tokens :=
  List.foldlM_cons

/-! ### Endings -/

/-- What is open behind an expression can be closed. -/
theorem exists_closing (frames : List Frame) :
    ∃ tokens, run ⟨.nothing, frames⟩ tokens = some final := by
  induction frames with
  | nil => exact ⟨[], rfl⟩
  | cons frame frames ih =>
    obtain ⟨tokens, ends⟩ := ih
    cases frame with
    | choice => exact ⟨.symbol .colon :: .string "" :: tokens, ends⟩
    | parentheses => exact ⟨.symbol .closeParen :: tokens, ends⟩
    | arguments => exact ⟨.symbol .closeParen :: tokens, ends⟩
    | items => exact ⟨.symbol .closeBracket :: tokens, ends⟩
    | index => exact ⟨.symbol .closeBracket :: tokens, ends⟩
    | entries => exact ⟨.symbol .closeBrace :: tokens, ends⟩

/-- **From every place there is a way** to the end of an expression. -/
theorem exists_ending (place : Place) : ∃ tokens, place.run tokens = some final := by
  obtain ⟨due, frames⟩ := place
  obtain ⟨tokens, ends⟩ := exists_closing frames
  cases due with
  | operand => exact ⟨.string "" :: tokens, ends⟩
  | item => exact ⟨.string "" :: tokens, ends⟩
  | key => exact ⟨.string "" :: .symbol .colon :: .string "" :: tokens, ends⟩
  | colon => exact ⟨.symbol .colon :: .string "" :: tokens, ends⟩
  | name => exact ⟨.word "" :: tokens, ends⟩
  | nothing => exact ⟨tokens, ends⟩

end Place

end DataBind.Expr
