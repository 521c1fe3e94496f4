/-
**What each reader of the parser does.**

A reader gives a value and leaves the rest of its tokens. What it gives is said in terms of what the
readers give that it calls, with one statement for each way in which its tokens can go on.

* `Gives`: a reader succeeds with a value and a rest;
* `gives_bind`, `gives_map`: readers one after the other;
* `iff_of_starts`: a reader that looks for a mark;
* `gives_readConditional` to `gives_readPrimary_object`: the readers, from the loosest on.
-/

import DataBind.Expr.Parse
import DataBind.Proofs.Expr.Grammar

namespace DataBind.Expr

open DataBind.Text

/-! ### What readers give -/

section Gives

variable {α β : Type} {length longer : Nat}

/-- A reader gives a value and leaves the rest of its tokens. -/
def Gives (result : Parsed α length) (value : α) (rest : List Spanned) : Prop :=
  ∃ shorter, result = .ok ⟨value, rest, shorter⟩

theorem Gives.shorter {result : Parsed α length} {value : α} {rest : List Spanned}
    (gives : Gives result value rest) : rest.length < length := by
  obtain ⟨shorter, _⟩ := gives
  exact shorter

theorem gives_ok {taken : Taken Spanned α length} {value : α} {rest : List Spanned} :
    Gives (.ok taken) value rest ↔ taken.value = value ∧ taken.rest = rest := by
  obtain ⟨found, left, shorter⟩ := taken
  constructor
  · rintro ⟨_, same⟩
    cases same
    exact ⟨rfl, rfl⟩
  · rintro ⟨rfl, rfl⟩
    exact ⟨shorter, rfl⟩

theorem not_gives_error {error : SyntaxError} {value : α} {rest : List Spanned} :
    ¬ Gives (.error error : Parsed α length) value rest := by
  rintro ⟨_, same⟩
  cases same

/-- A reader that goes on gives what comes after. -/
theorem gives_bind {first : Parsed α length} {next : Taken Spanned α length → Parsed β longer}
    {later : α → List Spanned → Prop} {value : β} {rest : List Spanned}
    (each : ∀ found middle shorter,
      Gives (next ⟨found, middle, shorter⟩) value rest ↔ later found middle) :
    Gives (first >>= next) value rest ↔
      ∃ found middle, Gives first found middle ∧ later found middle := by
  constructor
  · rintro ⟨shorter, same⟩
    obtain ⟨⟨found, middle, less⟩, read, same⟩ := exists_of_bind_eq_ok same
    exact ⟨found, middle, ⟨less, read⟩, (each found middle less).mp ⟨shorter, same⟩⟩
  · rintro ⟨found, middle, ⟨less, rfl⟩, rest⟩
    exact (each found middle less).mpr rest

/-- A reader whose value is made into another. -/
theorem gives_map {first : Parsed α length} {next : Taken Spanned α length → Taken Spanned β longer}
    {f : α → β} (same : ∀ taken, (next taken).value = f taken.value ∧ (next taken).rest = taken.rest)
    {value : β} {rest : List Spanned} :
    Gives (first >>= fun taken => pure (next taken)) value rest ↔
      ∃ found, Gives first found rest ∧ f found = value := by
  constructor
  · rintro ⟨shorter, equal⟩
    obtain ⟨taken, read, equal⟩ := exists_of_bind_eq_ok equal
    have made : next taken = ⟨value, rest, shorter⟩ := Except.ok.inj equal
    obtain ⟨values, rests⟩ := same taken
    rw [made] at values rests
    cases rests
    exact ⟨taken.value, ⟨taken.shorter, read⟩, values.symm⟩
  · rintro ⟨found, ⟨less, rfl⟩, rfl⟩
    obtain ⟨values, rests⟩ := same ⟨found, rest, less⟩
    exact gives_ok.mpr ⟨values, rests⟩

/-- A reader whose value is taken as it is. -/
theorem gives_keep {first : Parsed α length} {next : Taken Spanned α length → Taken Spanned α longer}
    (same : ∀ taken, (next taken).value = taken.value ∧ (next taken).rest = taken.rest)
    {value : α} {rest : List Spanned} :
    Gives (first >>= fun taken => pure (next taken)) value rest ↔ Gives first value rest := by
  rw [gives_map (f := id) same]
  simp

end Gives

/-! ### What each reader does -/

/-- The tokens start with a mark. -/
def Starts (mark : Punctuation) (tokens : List Spanned) : Prop :=
  ∃ offset rest, tokens = ⟨.symbol mark, offset⟩ :: rest

section Readers

variable {finish : Nat} {tokens rest : List Spanned}

theorem takeMark_self (finish : Nat) (mark : Punctuation) (offset : Nat) (rest : List Spanned) :
    takeMark finish mark (⟨.symbol mark, offset⟩ :: rest) =
      .ok ⟨offset, rest, Nat.lt_succ_self _⟩ := by
  rw [takeMark, if_pos]
  exact beq_self_eq_true mark

/-- Without the mark nothing is taken. -/
theorem exists_error_of_takeMark (finish : Nat) {mark : Punctuation}
    (other : ¬ Starts mark tokens) : ∃ error, takeMark finish mark tokens = .error error := by
  cases tokens with
  | nil => exact ⟨_, rfl⟩
  | cons first rest =>
    obtain ⟨token, offset⟩ := first
    rw [takeMark, if_neg]
    · exact ⟨_, rfl⟩
    · intro marked
      cases token with
      | symbol found => exact other ⟨offset, rest, by rw [eq_of_beq marked]⟩
      | number _ => cases marked
      | string _ => cases marked
      | word _ => cases marked

theorem gives_takeMark {mark : Punctuation} {offset : Nat} :
    Gives (takeMark finish mark tokens) offset rest ↔ tokens = ⟨.symbol mark, offset⟩ :: rest := by
  by_cases starts : Starts mark tokens
  · obtain ⟨place, others, rfl⟩ := starts
    rw [takeMark_self, gives_ok]
    simp
  · obtain ⟨error, failed⟩ := exists_error_of_takeMark finish starts
    rw [failed]
    exact ⟨fun gives => absurd gives not_gives_error, fun same => absurd ⟨_, _, same⟩ starts⟩

/-- What holds of tokens that start with a mark and of others, in one statement. -/
theorem iff_of_starts {mark : Punctuation} {holds unmarked : Prop}
    {marked : Nat → List Spanned → Prop}
    (found : ∀ offset others, tokens = ⟨.symbol mark, offset⟩ :: others →
      (holds ↔ marked offset others))
    (missing : ¬ Starts mark tokens → (holds ↔ unmarked)) :
    holds ↔ (∃ offset others, tokens = ⟨.symbol mark, offset⟩ :: others ∧ marked offset others) ∨
      ¬ Starts mark tokens ∧ unmarked := by
  constructor
  · intro given
    by_cases starts : Starts mark tokens
    · obtain ⟨offset, others, same⟩ := starts
      exact Or.inl ⟨offset, others, same, (found offset others same).mp given⟩
    · exact Or.inr ⟨starts, (missing starts).mp given⟩
  · rintro (⟨offset, others, same, given⟩ | ⟨starts, given⟩)
    · exact (found offset others same).mpr given
    · exact (missing starts).mpr given

/-- The two choices of a conditional, the first up to a colon. -/
def Chooses (finish : Nat) (test : Expr) (tokens : List Spanned) (value : Expr)
    (rest : List Spanned) : Prop :=
  ∃ yes after, Gives (readConditional finish tokens) yes after ∧
    ∃ offset others, Gives (takeMark finish .colon after) offset others ∧
      ∃ no last, Gives (readConditional finish others) no last ∧
        .conditional test yes no = value ∧ last = rest

/-- A conditional goes on after a question mark, or is its condition. -/
theorem gives_readConditional {value : Expr} :
    Gives (readConditional finish tokens) value rest ↔
      ∃ test middle, Gives (readLevel finish 0 tokens) test middle ∧
        ((∃ place chosen, middle = ⟨.symbol .question, place⟩ :: chosen ∧
            Chooses finish test chosen value rest) ∨
          ¬ Starts .question middle ∧ test = value ∧ middle = rest) := by
  rw [readConditional]
  refine gives_bind fun test middle _ => iff_of_starts (fun place chosen same => ?_) fun starts => ?_
  · subst same
    simp only [takeMark_self]
    exact gives_bind fun yes after _ => gives_bind fun offset others _ =>
      gives_bind fun no last _ => gives_ok
  · obtain ⟨error, failed⟩ := exists_error_of_takeMark finish starts
    simp only [failed]
    exact gives_ok

/-- A level is its first operand, and those after it. -/
theorem gives_readLevel {depth : Nat} (below : depth < 6) {value : Expr} :
    Gives (readLevel finish depth tokens) value rest ↔
      ∃ left middle, Gives (readLevel finish (depth + 1) tokens) left middle ∧
        Gives (readOperands finish depth left middle) value rest := by
  rw [readLevel, if_pos below]
  exact gives_bind fun left middle _ => gives_keep fun whole => by simp

/-- The deepest level reads the operators before an operand. -/
theorem readLevel_six : readLevel finish 6 tokens = readUnary finish tokens := by
  rw [readLevel, if_neg (Nat.lt_irrefl 6)]

/-- Without an operator of the level there are no further operands. -/
theorem gives_readOperands_stop {depth : Nat} {left value : Expr}
    (stop : ∀ first ∈ tokens.head?, operator? depth first.token = none) :
    Gives (readOperands finish depth left tokens) value rest ↔ left = value ∧ tokens = rest := by
  cases tokens with
  | nil =>
    rw [readOperands, gives_ok]
  | cons first others =>
    obtain ⟨token, offset⟩ := first
    have none : operator? depth token = none := stop _ rfl
    rw [readOperands, none, gives_ok]

/-- After an operator of the level there is its right operand. -/
theorem gives_readOperands_more {depth offset : Nat} {left value : Expr} {token : Token}
    {operator : Operator} (found : operator? depth token = some operator) :
    Gives (readOperands finish depth left (⟨token, offset⟩ :: tokens)) value rest ↔
      ∃ right middle, Gives (readLevel finish (depth + 1) tokens) right middle ∧
        Gives (readOperands finish depth (operator.apply left right) middle) value rest := by
  rw [readOperands]
  simp only [found]
  exact gives_bind fun right middle _ => gives_keep fun whole => by simp

/-- An operator before an operand. -/
theorem gives_readUnary_operator {offset : Nat} {value : Expr} {token : Token} {op : UnaryOp}
    (found : unaryOperator? token = some op) :
    Gives (readUnary finish (⟨token, offset⟩ :: tokens)) value rest ↔
      ∃ operand, Gives (readUnary finish tokens) operand rest ∧ .unary op operand = value := by
  rw [readUnary]
  simp only [found]
  exact gives_map fun operand => by simp

/-- Without an operator before it an operand is read at once. -/
theorem readUnary_plain (plain : ∀ first ∈ tokens.head?, unaryOperator? first.token = none) :
    readUnary finish tokens = readPostfix finish tokens := by
  cases tokens with
  | nil => rw [readUnary]
  | cons first others =>
    obtain ⟨token, offset⟩ := first
    have none : unaryOperator? token = none := plain _ rfl
    rw [readUnary, none]

/-- A primary expression, and the accesses after it. -/
theorem gives_readPostfix {value : Expr} :
    Gives (readPostfix finish tokens) value rest ↔
      ∃ base middle, Gives (readPrimary finish tokens) base middle ∧
        Gives (readAccesses finish base middle) value rest := by
  rw [readPostfix]
  exact gives_bind fun base middle _ => gives_keep fun whole => by simp

/-- The marks that an access starts with. -/
def accessMarks : List Punctuation :=
  [.dot, .openBracket, .openParen]

/-- Without an access the expression is complete. -/
theorem gives_readAccesses_stop {base value : Expr}
    (stop : ∀ mark ∈ accessMarks, ¬ Starts mark tokens) :
    Gives (readAccesses finish base tokens) value rest ↔ base = value ∧ tokens = rest := by
  have dot := stop .dot (by decide)
  have bracket := stop .openBracket (by decide)
  have paren := stop .openParen (by decide)
  rw [readAccesses.eq_def]
  split
  · exact absurd ⟨_, _, rfl⟩ dot
  · exact absurd ⟨_, _, rfl⟩ dot
  · exact absurd ⟨_, _, rfl⟩ dot
  · exact absurd ⟨_, _, rfl⟩ bracket
  · exact absurd ⟨_, _, rfl⟩ paren
  · exact gives_ok

/-- A point is followed by a word. -/
theorem gives_readAccesses_member {base value : Expr} {place : Nat} :
    Gives (readAccesses finish base (⟨.symbol .dot, place⟩ :: tokens)) value rest ↔
      ∃ property offset others, tokens = ⟨.word property, offset⟩ :: others ∧
        Gives (readAccesses finish (.member base property) others) value rest := by
  cases tokens with
  | nil =>
    rw [readAccesses]
    refine iff_of_false not_gives_error ?_
    rintro ⟨_, _, _, same, _⟩
    cases same
  | cons first others =>
    obtain ⟨token, offset⟩ := first
    cases token with
    | word property =>
      rw [readAccesses]
      refine (gives_keep fun whole => by simp).trans ?_
      constructor
      · exact fun gives => ⟨property, offset, others, rfl, gives⟩
      · rintro ⟨_, _, _, same, gives⟩
        cases same
        exact gives
    | number _ | string _ | symbol _ =>
      rw [readAccesses]
      · refine iff_of_false not_gives_error ?_
        rintro ⟨_, _, _, same, _⟩
        cases same
      · simp

/-- A bracket is followed by a key up to the closing bracket. -/
theorem gives_readAccesses_index {base value : Expr} {place : Nat} :
    Gives (readAccesses finish base (⟨.symbol .openBracket, place⟩ :: tokens)) value rest ↔
      ∃ key after, Gives (readConditional finish tokens) key after ∧
        ∃ offset others, Gives (takeMark finish .closeBracket after) offset others ∧
          Gives (readAccesses finish (.index base key) others) value rest := by
  rw [readAccesses]
  exact gives_bind fun key after _ => gives_bind fun offset others _ =>
    gives_keep fun whole => by simp

/-- A parenthesis is followed by arguments. -/
theorem gives_readAccesses_call {base value : Expr} {place : Nat} :
    Gives (readAccesses finish base (⟨.symbol .openParen, place⟩ :: tokens)) value rest ↔
      ∃ arguments after, Gives (readItems finish .closeParen tokens) arguments after ∧
        Gives (readAccesses finish (.call base arguments) after) value rest := by
  rw [readAccesses]
  exact gives_bind fun arguments after _ => gives_keep fun whole => by simp

/-- The closing mark ends a list of items. -/
theorem gives_readItems_close {close : Punctuation} {offset : Nat} {values : List Expr} :
    Gives (readItems finish close (⟨.symbol close, offset⟩ :: tokens)) values rest ↔
      [] = values ∧ tokens = rest := by
  rw [readItems, takeMark_self]
  exact gives_ok

/-- What goes on after an item: a comma and more items, or the closing mark. -/
theorem gives_readItems_item {close : Punctuation} (other : ¬ Starts close tokens)
    {values : List Expr} :
    Gives (readItems finish close tokens) values rest ↔
      ∃ item middle, Gives (readConditional finish tokens) item middle ∧
        ((∃ offset others, middle = ⟨.symbol .comma, offset⟩ :: others ∧
            ∃ more, Gives (readItems finish close others) more rest ∧ item :: more = values) ∨
          ¬ Starts .comma middle ∧
            ∃ offset, Gives (takeMark finish close middle) offset rest ∧ [item] = values) := by
  obtain ⟨error, failed⟩ := exists_error_of_takeMark finish other
  rw [readItems, failed]
  refine gives_bind fun item middle _ => iff_of_starts (fun offset others same => ?_) fun starts => ?_
  · subst same
    simp only [takeMark_self]
    exact gives_map (f := (item :: ·)) fun more => by simp
  · obtain ⟨cause, missing⟩ := exists_error_of_takeMark finish starts
    simp only [missing]
    exact (gives_map (f := fun _ => [item]) fun closed => by simp)

/-- The closing brace ends a list of entries. -/
theorem gives_readEntries_close {before offset : Nat} {values : List (String × Expr)} :
    Gives (readEntries finish before (⟨.symbol .closeBrace, offset⟩ :: tokens)) values rest ↔
      [] = values ∧ tokens = rest := by
  rw [readEntries]
  exact gives_ok

theorem not_keyed_symbol {mark : Punctuation} {property : String} :
    ¬ Keyed (.symbol mark) property := by
  intro keyed
  cases keyed

theorem key?_eq_some {token : Token} {property : String} :
    key? token = some property ↔ Keyed token property := by
  constructor
  · intro found
    cases token with
    | word _ => cases found; exact .word _
    | string _ => cases found; exact .string _
    | number _ => cases found; exact .number _
    | symbol mark => cases found
  · intro keyed
    cases keyed <;> rfl

/-- What goes on after the first token of an entry: a colon, a value, and then a comma and more
entries, or the closing brace. -/
theorem gives_readEntries_entry {before place : Nat} {token : Token}
    (other : token ≠ .symbol .closeBrace) {values : List (String × Expr)} :
    Gives (readEntries finish before (⟨token, place⟩ :: tokens)) values rest ↔
      ∃ property, Keyed token property ∧
        ∃ colon others, Gives (takeMark finish .colon tokens) colon others ∧
          ∃ value middle, Gives (readConditional finish others) value middle ∧
            ((∃ comma after, middle = ⟨.symbol .comma, comma⟩ :: after ∧
                ∃ more, Gives (readEntries finish comma after) more rest ∧
                  (property, value) :: more = values) ∨
              ¬ Starts .comma middle ∧
                ∃ offset, Gives (takeMark finish .closeBrace middle) offset rest ∧
                  [(property, value)] = values) := by
  rw [readEntries]
  · cases found : key? token with
    | none =>
      refine ⟨fun gives => absurd gives not_gives_error, ?_⟩
      rintro ⟨property, keyed, _⟩
      rw [key?_eq_some.mpr keyed] at found
      cases found
    | some property =>
      have only : ∀ {length : Nat} {result : Parsed (List (String × Expr)) length}
          {later : String → Prop}, (Gives result values rest ↔ later property) →
          (Gives result values rest ↔ ∃ property, Keyed token property ∧ later property) := by
        intro length result later same
        rw [same]
        constructor
        · exact fun holds => ⟨property, key?_eq_some.mp found, holds⟩
        · rintro ⟨name, keyed, holds⟩
          rw [key?_eq_some.mpr keyed] at found
          cases found
          exact holds
      refine only (gives_bind fun colon others _ => gives_bind fun value middle _ =>
        iff_of_starts (fun comma after same => ?_) fun starts => ?_)
      · subst same
        simp only [takeMark_self]
        exact gives_map (f := ((property, value) :: ·)) fun more => by simp
      · obtain ⟨cause, missing⟩ := exists_error_of_takeMark finish starts
        simp only [missing]
        exact gives_map (f := fun _ => [(property, value)]) fun closed => by simp
  · exact other

theorem not_gives_readEntries_nil {before : Nat} {values : List (String × Expr)} :
    ¬ Gives (readEntries finish before []) values rest := by
  rw [readEntries]
  exact not_gives_error

/-- A single token that is an expression by itself. -/
def atom? : Token → Option Expr
  | .number amount => some (.literal (.number amount))
  | .string text => some (.literal (.string text))
  | .word word => some (ofWord word)
  | .symbol _ => none

theorem gives_readPrimary_atom {token : Token} {offset : Nat} {value found : Expr}
    (atom : atom? token = some found) :
    Gives (readPrimary finish (⟨token, offset⟩ :: tokens)) value rest ↔
      found = value ∧ tokens = rest := by
  cases token <;> cases atom <;> rw [readPrimary] <;> exact gives_ok

/-- In parentheses there is an expression. -/
theorem gives_readPrimary_parentheses {offset : Nat} {value : Expr} :
    Gives (readPrimary finish (⟨.symbol .openParen, offset⟩ :: tokens)) value rest ↔
      ∃ inner middle, Gives (readConditional finish tokens) inner middle ∧
        ∃ place, Gives (takeMark finish .closeParen middle) place rest ∧ inner = value := by
  rw [readPrimary]
  exact gives_bind fun inner middle _ => gives_map (f := fun _ => inner) fun closed => by simp

/-- In brackets there are the items of an array. -/
theorem gives_readPrimary_array {offset : Nat} {value : Expr} :
    Gives (readPrimary finish (⟨.symbol .openBracket, offset⟩ :: tokens)) value rest ↔
      ∃ items, Gives (readItems finish .closeBracket tokens) items rest ∧ .array items = value := by
  rw [readPrimary]
  exact gives_map fun items => by simp

/-- In braces there are the entries of an object. -/
theorem gives_readPrimary_object {offset : Nat} {value : Expr} :
    Gives (readPrimary finish (⟨.symbol .openBrace, offset⟩ :: tokens)) value rest ↔
      ∃ entries, Gives (readEntries finish offset tokens) entries rest ∧
        .object entries = value := by
  rw [readPrimary]
  exact gives_map fun entries => by simp

/-- No other mark starts a primary expression. -/
theorem not_gives_readPrimary {mark : Punctuation} {offset : Nat} {value : Expr}
    (other : mark ∉ [Punctuation.openParen, .openBracket, .openBrace]) :
    ¬ Gives (readPrimary finish (⟨.symbol mark, offset⟩ :: tokens)) value rest := by
  rw [readPrimary]
  · exact not_gives_error
  all_goals
    intros
    simp_all

theorem not_gives_readPrimary_nil {value : Expr} :
    ¬ Gives (readPrimary finish []) value rest := by
  rw [readPrimary]
  exact not_gives_error

end Readers

end DataBind.Expr
