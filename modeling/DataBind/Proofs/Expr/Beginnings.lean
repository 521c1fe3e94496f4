/-
**Where syntax errors are reported.**

Tokens are the beginning of an expression just if they lead to a place inside of one. So a syntax
error is reported at the first token with which no expression begins any more, or at the end of the
source if this is too short. Only where the name of a property or the key of an entry is missing at
the end, it is reported at the last token, before the end.

* `Begins`, `begins_iff`: the beginnings of expressions;
* `exists_derives_iff`: the tokens of whole expressions;
* `NameDue`, `nameDue_iff`: where a word can follow, but no expression;
* `offset_lt_of_tokenize`: tokens start before the end of their source;
* `position_of_parse`: the position of every syntax error that is found in tokens.
-/

import DataBind.Proofs.Expr.Lexemes
import DataBind.Proofs.Expr.Stopping
import Mathlib

namespace DataBind.Expr

open DataBind.Text

/-! ### Beginnings -/

/-- **An expression begins with these tokens.** -/
def Begins (tokens : List Token) : Prop :=
  ∃ more value, Derives .conditional (tokens ++ more) value

/-- **The tokens of an expression** are those that lead behind a whole one. -/
theorem exists_derives_iff {tokens : List Token} :
    (∃ value, Derives .conditional tokens value) ↔ Place.start.run tokens = some .final := by
  obtain ⟨spanned, rfl⟩ : ∃ spanned : List Spanned, spanned.map Spanned.token = tokens :=
    ⟨tokens.map fun token => ⟨token, 0⟩, by rw [List.map_map]; exact List.map_id tokens⟩
  constructor
  · rintro ⟨value, derives⟩
    have parsed : ofTokens 0 spanned = .ok value := ofTokens_eq_ok_iff.mpr derives
    exact leads_of_ofTokens parsed
  · intro run
    cases parsed : ofTokens 0 spanned with
    | ok value => exact ⟨value, ofTokens_eq_ok_iff.mp parsed⟩
    | error error =>
      -- a reading that stops does not come to the end of an expression
      cases stops_of_ofTokens parsed with
      | @token used rest first reached _ leads refused _ =>
        rw [List.map_append, Place.run_append, leads, Option.bind_some, List.map_cons,
          Place.run_cons, refused] at run
        cases run
      | ended leads unfinished _ => exact absurd (Option.some.inj (leads.symm.trans run)) unfinished

/-- **Expressions begin** with the tokens that lead to some place. -/
theorem begins_iff {tokens : List Token} :
    Begins tokens ↔ ∃ place, Place.start.run tokens = some place := by
  constructor
  · rintro ⟨more, derives⟩
    have run := exists_derives_iff.mp derives
    rw [Place.run_append] at run
    obtain ⟨place, reached, _⟩ := Option.bind_eq_some_iff.mp run
    exact ⟨place, reached⟩
  · rintro ⟨place, reached⟩
    obtain ⟨more, ends⟩ := place.exists_ending
    refine ⟨more, exists_derives_iff.mpr ?_⟩
    rw [Place.run_append, reached]
    exact ends

theorem begins_append_iff {tokens : List Token} {place : Place}
    (reached : Place.start.run tokens = some place) (token : Token) :
    Begins (tokens ++ [token]) ↔ (place.step token).isSome = true := by
  rw [begins_iff, Place.run_append, reached, Option.bind_some, Place.run_cons]
  cases place.step token with
  | none => simp
  | some next => simp [Place.run]

/-! ### Missing names -/

/-- **A name is due** behind these tokens: a word can follow, but no expression. -/
def NameDue (tokens : List Token) : Prop :=
  (∃ name, Begins (tokens ++ [.word name])) ∧ ¬ Begins (tokens ++ [.symbol .openParen])

/-- A name is due where that of a property is missing, or the key of an entry. -/
theorem nameDue_iff {tokens : List Token} {place : Place}
    (reached : Place.start.run tokens = some place) :
    NameDue tokens ↔ place.due = .name ∨ place.due = .key := by
  rw [NameDue, begins_append_iff reached]
  simp only [begins_append_iff reached]
  obtain ⟨due, frames⟩ := place
  have closed : ∀ place, (Place.closed .openParen frames <|> some place).isSome = true :=
    fun place => by cases Place.closed .openParen frames <;> rfl
  cases due with
  | operand => exact iff_of_false (fun due => due.2 rfl) (by simp)
  | item => exact iff_of_false (fun due => due.2 (closed _)) (by simp)
  | key => exact iff_of_true ⟨⟨"", rfl⟩, Bool.false_ne_true⟩ (.inr rfl)
  | colon => exact iff_of_false (fun ⟨⟨_, step⟩, _⟩ => Bool.false_ne_true step) (by simp)
  | name => exact iff_of_true ⟨⟨"", rfl⟩, Bool.false_ne_true⟩ (.inl rfl)
  | nothing => exact iff_of_false (fun due => due.2 rfl) (by simp)

/-! ### Offsets -/

/-- Every lexeme starts before the end of the text. -/
theorem LaidOut.offset_lt {offset : Nat} {text : List Char} {pieces : List Piece}
    (laid : LaidOut offset text pieces) :
    ∀ piece ∈ pieces, piece.spanned.offset < offset + byteLength text := by
  induction laid with
  | nil => exact List.forall_mem_nil _
  | blank _ _ ih =>
    intro piece member
    rw [byteLength_cons, ← Nat.add_assoc]
    exact ih piece member
  | @lexeme offset token lexeme rest pieces form _ _ ih =>
    rw [byteLength_append, ← Nat.add_assoc]
    have positive := form.byteLength_pos
    exact List.forall_mem_cons.mpr ⟨by show offset < _; omega, ih⟩

/-- **Every token starts before the end** of its source. -/
theorem offset_lt_of_tokenize {source : String} {tokens : List Spanned}
    (read : tokenize source = .ok tokens) :
    ∀ token ∈ tokens, token.offset < byteLength source.toList := by
  obtain ⟨pieces, rfl, laid, _⟩ := exists_laidOut read
  intro token member
  obtain ⟨piece, inside, rfl⟩ := List.mem_map.mp member
  have before := laid.offset_lt piece inside
  rwa [Nat.zero_add] at before

/-! ### Positions -/

/-- **Where an error in tokens is reported**, of a source that ends at `finish`. -/
inductive Reported (finish : Nat) : List Spanned → Nat → Prop
  /-- At the first token with which no expression begins any more. -/
  | refused {before after : List Spanned} {first : Spanned} :
      Begins (before.map Spanned.token) →
      ¬ Begins (before.map Spanned.token ++ [first.token]) →
      Reported finish (before ++ first :: after) first.offset
  /-- At the end, if more tokens are missing, and the first of them is no name. -/
  | ended {tokens : List Spanned} :
      Begins (tokens.map Spanned.token) →
      (¬ ∃ value, Derives .conditional (tokens.map Spanned.token) value) →
      ¬ NameDue (tokens.map Spanned.token) → Reported finish tokens finish
  /-- At the last token, before the end, if a name is missing. -/
  | due {front : List Spanned} {last : Spanned} :
      NameDue ((front ++ [last]).map Spanned.token) → last.offset < finish →
      Reported finish (front ++ [last]) last.offset

/-- Where a name is due, an error is reported at the last token. -/
theorem reported_due {finish : Nat} {tokens : List Spanned} {place : Place}
    (leads : Leads .start tokens place) (due : place.due = .name ∨ place.due = .key)
    (inside : ∀ token ∈ tokens, token.offset < finish) :
    Reported finish tokens (lastOffset 0 tokens) := by
  rcases tokens.eq_nil_or_concat' with rfl | ⟨front, last, rfl⟩
  · cases leads
    rcases due with due | due <;> cases due
  · rw [lastOffset_append]
    exact .due ((nameDue_iff leads).mpr due) (inside last (by simp))

/-- **The position of a syntax error** that is found in the tokens of a source: the first token with
which no expression begins any more, or the end of the source if this is too short; but the last
token if the name of a property or the key of an entry is missing at the end. -/
theorem position_of_parse {source : String} {tokens : List Spanned} {error : SyntaxError}
    (read : tokenize source = .ok tokens) (failed : parse source = .error error) :
    Reported (byteLength source.toList) tokens error.position := by
  have parsed : ofTokens (byteLength source.toList) tokens = .error error := by
    rw [parse, read] at failed
    exact failed
  cases stops_of_ofTokens parsed with
  | @token before after first reached _ leads refused position =>
    rw [position]
    refine .refused (begins_iff.mpr ⟨reached, leads⟩) ?_
    rw [begins_append_iff leads, refused]
    exact Bool.false_ne_true
  | @ended _ reached _ leads unfinished position =>
    rw [position, Place.report]
    split
    · exact reported_due leads (.inl ‹_›) (offset_lt_of_tokenize read)
    · exact reported_due leads (.inr ‹_›) (offset_lt_of_tokenize read)
    · refine .ended (begins_iff.mpr ⟨reached, leads⟩) (fun whole => ?_) fun due => ?_
      · have final := exists_derives_iff.mp whole
        exact unfinished (Option.some.inj (leads.symm.trans final))
      · rcases (nameDue_iff leads).mp due with due | due <;> contradiction

/-- Behind a name in brackets there is no other name. -/
theorem position_of_parse_brackets :
    tokenize "[a b" = .ok [⟨.symbol .openBracket, 0⟩, ⟨.word "a", 1⟩, ⟨.word "b", 3⟩] ∧
      parse "[a b" = .error ⟨.expectedMark .closeBracket (some (.word "b")), 3⟩ ∧
      Reported 4 [⟨.symbol .openBracket, 0⟩, ⟨.word "a", 1⟩, ⟨.word "b", 3⟩] 3 := by
  have read : tokenize "[a b" =
      .ok [⟨.symbol .openBracket, 0⟩, ⟨.word "a", 1⟩, ⟨.word "b", 3⟩] := by
    cbv
  have failed : parse "[a b" = .error ⟨.expectedMark .closeBracket (some (.word "b")), 3⟩ := by
    cbv
  exact ⟨read, failed, position_of_parse read failed⟩

/-- **A name that is missing at the end** is reported before it: `a.` is the beginning of `a.b`, and
the error stands at the point. -/
theorem parse_point :
    tokenize "a." = .ok [⟨.word "a", 0⟩, ⟨.symbol .dot, 1⟩] ∧
      Derives .conditional [.word "a", .symbol .dot, .word "b"] (.member (.ident "a") "b") ∧
      parse "a." = .error ⟨.expectedPropertyName, 1⟩ ∧ byteLength "a.".toList = 2 := by
  refine ⟨by cbv, ?_, by cbv, rfl⟩
  exact (Derives.member "b" (.tighter (.name (by decide)))).loosen (by decide)

end DataBind.Expr
