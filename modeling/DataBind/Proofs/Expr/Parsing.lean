/-
**The parser reads what the grammar derives.**

What a reader takes from its tokens derives its value: by induction on the number of tokens, since
every expression inside of another is read from fewer of them. Conversely tokens that derive a value
are read as that value: by induction on the derivation, where what follows is not part of the
expression. As operands and accesses are read from the left, an expression of their levels is read
up to where the reading goes on with it as what stands on the left.

* `Takes`: a rest of tokens, before which tokens derive a value;
* `takes_of_gives`: a reader takes tokens that derive its value;
* `Completes`: how tokens are read that derive a value, level by level;
* `completes_of_derives`: tokens that derive a value are read as that value;
* `ofTokens_eq_ok_iff`: the parser accepts exactly the tokens of an expression.
-/

import DataBind.Proofs.Expr.Readers

namespace DataBind.Expr

variable {finish : Nat}

/-! ### What is read is derived -/

/-- Tokens begin with some that derive a value, and end with a rest. -/
def Takes (level : Level) (tokens : List Spanned) (value : Expr) (rest : List Spanned) : Prop :=
  ∃ used, tokens = used ++ rest ∧ Derives level (used.map Spanned.token) value

/-- The reader of expressions takes what derives its value, from fewer tokens than a bound. -/
def SoundBelow (finish bound : Nat) : Prop :=
  ∀ tokens : List Spanned, tokens.length < bound → ∀ value rest,
    Gives (readConditional finish tokens) value rest → Takes .conditional tokens value rest

theorem Takes.tighter {level : Level} {tokens rest : List Spanned} {value : Expr}
    (takes : Takes level.next tokens value rest) : Takes level tokens value rest := by
  obtain ⟨used, split, derives⟩ := takes
  exact ⟨used, split, .tighter derives⟩

/-- Items up to a closing mark. -/
def TakesItems (close : Punctuation) (tokens : List Spanned) (values : List Expr)
    (rest : List Spanned) : Prop :=
  ∃ used offset, ∃ items : List (List Token × Expr),
    tokens = used ++ ⟨.symbol close, offset⟩ :: rest ∧
      Listed (items.map Prod.fst) (used.map Spanned.token) ∧
      (∀ item ∈ items, Derives .conditional item.1 item.2) ∧ items.map Prod.snd = values

/-- Entries up to a closing brace. -/
def TakesEntries (tokens : List Spanned) (values : List (String × Expr)) (rest : List Spanned) :
    Prop :=
  ∃ used offset, ∃ entries : List Entry,
    tokens = used ++ ⟨.symbol .closeBrace, offset⟩ :: rest ∧
      Listed (entries.map Entry.written) (used.map Spanned.token) ∧
      (∀ entry ∈ entries, Keyed entry.key entry.property) ∧
      (∀ entry ∈ entries, Derives .conditional entry.tokens entry.value) ∧
      (entries.map fun entry => (entry.property, entry.value)) = values

/-- What stands on the left, together with the operands after it. -/
theorem takes_of_gives_readOperands {bound depth : Nat} (below : depth < 6)
    (operand : ∀ tokens : List Spanned, tokens.length ≤ bound → ∀ value rest,
      Gives (readLevel finish (depth + 1) tokens) value rest →
        Takes (Level.atDepth (depth + 1)) tokens value rest)
    {front tokens rest : List Spanned} {left value : Expr} (fewer : tokens.length ≤ bound)
    (derives : Derives (Level.atDepth depth) (front.map Spanned.token) left)
    (gives : Gives (readOperands finish depth left tokens) value rest) :
    Takes (Level.atDepth depth) (front ++ tokens) value rest := by
  induction count : tokens.length using Nat.strongRecOn generalizing front tokens left
  rename_i length ih
  by_cases stop : ∀ first ∈ tokens.head?, operator? depth first.token = none
  · obtain ⟨rfl, rfl⟩ := (gives_readOperands_stop stop).mp gives
    exact ⟨front, rfl, derives⟩
  · cases tokens with
    | nil => exact absurd (by simp) stop
    | cons first others =>
      obtain ⟨token, offset⟩ := first
      obtain ⟨operator, found⟩ : ∃ operator, operator? depth token = some operator := by
        simpa [Option.ne_none_iff_exists'] using stop
      obtain ⟨right, middle, read, more⟩ := (gives_readOperands_more found).mp gives
      rw [List.length_cons] at count fewer
      obtain ⟨used, rfl, second⟩ := operand others (by omega) _ _ read
      rw [List.length_append] at count fewer
      obtain ⟨member, rfl⟩ := operator?_eq_some.mp found
      have longer : Derives (Level.atDepth depth) (List.map Spanned.token
          (front ++ ⟨.symbol operator.mark, offset⟩ :: used)) (operator.apply left right) := by
        rw [← Level.next_atDepth below] at second
        simpa using Derives.joined member derives second
      simpa using ih middle.length (by omega) (by omega) longer more rfl

section Sound

variable {bound : Nat} (inner : SoundBelow finish bound)
include inner

/-- The items of a list are expressions separated by commas. -/
theorem takesItems_of_gives {close : Punctuation} {tokens rest : List Spanned}
    {values : List Expr} (fewer : tokens.length < bound)
    (gives : Gives (readItems finish close tokens) values rest) :
    TakesItems close tokens values rest := by
  induction count : tokens.length using Nat.strongRecOn generalizing tokens values
  rename_i length ih
  by_cases closes : Starts close tokens
  · obtain ⟨offset, others, rfl⟩ := closes
    obtain ⟨rfl, rfl⟩ := gives_readItems_close.mp gives
    exact ⟨[], offset, [], rfl, .empty, by simp, rfl⟩
  · obtain ⟨item, middle, read, goes⟩ := (gives_readItems_item closes).mp gives
    obtain ⟨first, rfl, derives⟩ := inner tokens fewer _ _ read
    rcases goes with ⟨offset, others, rfl, more, later, rfl⟩ | ⟨_, offset, closed, rfl⟩
    · rw [List.length_append, List.length_cons] at count fewer
      obtain ⟨used, place, items, rfl, listed, all, rfl⟩ :=
        ih others.length (by omega) (by omega) later rfl
      refine ⟨first ++ ⟨.symbol .comma, offset⟩ :: used, place,
        (first.map Spanned.token, item) :: items, by simp, ?_, ?_, rfl⟩
      · rw [List.map_append, List.map_cons, List.map_cons]
        exact .more listed
      · exact List.forall_mem_cons.mpr ⟨derives, all⟩
    · rw [gives_takeMark] at closed
      subst closed
      exact ⟨first, offset, [(first.map Spanned.token, item)], rfl, .last _,
        by simpa using derives, rfl⟩

/-- The entries of an object are keys and expressions separated by commas. -/
theorem takesEntries_of_gives {before : Nat} {tokens rest : List Spanned}
    {values : List (String × Expr)} (fewer : tokens.length < bound)
    (gives : Gives (readEntries finish before tokens) values rest) :
    TakesEntries tokens values rest := by
  induction count : tokens.length using Nat.strongRecOn generalizing before tokens values
  rename_i length ih
  by_cases closes : Starts .closeBrace tokens
  · obtain ⟨offset, others, rfl⟩ := closes
    obtain ⟨rfl, rfl⟩ := gives_readEntries_close.mp gives
    exact ⟨[], offset, [], rfl, .empty, by simp, by simp, rfl⟩
  · cases tokens with
    | nil => exact absurd gives not_gives_readEntries_nil
    | cons head tail =>
      obtain ⟨key, place⟩ := head
      have other : key ≠ .symbol .closeBrace := by
        rintro rfl
        exact closes ⟨place, tail, rfl⟩
      obtain ⟨property, keyed, colon, others, marked, value, middle, read, goes⟩ :=
        (gives_readEntries_entry other).mp gives
      rw [gives_takeMark] at marked
      subst marked
      rw [List.length_cons, List.length_cons] at count fewer
      obtain ⟨first, rfl, derives⟩ := inner others (by omega) _ _ read
      let entry : Entry := ⟨key, property, first.map Spanned.token, value⟩
      rcases goes with ⟨comma, after, rfl, more, later, rfl⟩ | ⟨_, offset, closed, rfl⟩
      · rw [List.length_append, List.length_cons] at count fewer
        obtain ⟨used, last, entries, rfl, listed, keys, all, rfl⟩ :=
          ih after.length (by omega) (by omega) later rfl
        refine ⟨⟨key, place⟩ :: ⟨.symbol .colon, colon⟩ :: (first ++
          ⟨.symbol .comma, comma⟩ :: used), last, entry :: entries, by simp, ?_,
          List.forall_mem_cons.mpr ⟨keyed, keys⟩, List.forall_mem_cons.mpr ⟨derives, all⟩, rfl⟩
        have more : Listed (entry.written :: entries.map Entry.written) _ := listed.more
        simpa [Entry.written, entry] using more
      · rw [gives_takeMark] at closed
        subst closed
        refine ⟨⟨key, place⟩ :: ⟨.symbol .colon, colon⟩ :: first, offset, [entry], by simp, ?_,
          by simpa using keyed, by simpa using derives, rfl⟩
        have last := Listed.last entry.written
        simpa [Entry.written, entry] using last

/-- A primary expression is one token, or stands in brackets of some kind. -/
theorem takes_of_gives_readPrimary {tokens rest : List Spanned} {value : Expr}
    (fewer : tokens.length ≤ bound)
    (plain : ∀ first ∈ tokens.head?, unaryOperator? first.token = none)
    (gives : Gives (readPrimary finish tokens) value rest) : Takes .primary tokens value rest := by
  cases tokens with
  | nil => exact absurd gives not_gives_readPrimary_nil
  | cons first others =>
    obtain ⟨token, offset⟩ := first
    rw [List.length_cons] at fewer
    cases token with
    | number amount =>
      obtain ⟨rfl, rfl⟩ := (gives_readPrimary_atom rfl).mp gives
      exact ⟨[_], rfl, .number amount⟩
    | string text =>
      obtain ⟨rfl, rfl⟩ := (gives_readPrimary_atom rfl).mp gives
      exact ⟨[_], rfl, .string text⟩
    | word word =>
      obtain ⟨rfl, rfl⟩ := (gives_readPrimary_atom rfl).mp gives
      have other : word ≠ "typeof" := by
        rintro rfl
        cases plain _ rfl
      exact ⟨[_], rfl, derives_ofWord other⟩
    | symbol mark =>
      by_cases opens : mark ∈ [Punctuation.openParen, .openBracket, .openBrace]
      · simp only [List.mem_cons, List.not_mem_nil, or_false] at opens
        rcases opens with rfl | rfl | rfl
        · obtain ⟨found, middle, read, place, closed, rfl⟩ :=
            gives_readPrimary_parentheses.mp gives
          rw [gives_takeMark] at closed
          subst closed
          obtain ⟨used, rfl, derives⟩ := inner others (by omega) _ _ read
          refine ⟨⟨.symbol .openParen, offset⟩ :: (used ++ [⟨.symbol .closeParen, place⟩]),
            by simp, ?_⟩
          simpa using Derives.parentheses derives
        · obtain ⟨items, read, rfl⟩ := gives_readPrimary_array.mp gives
          obtain ⟨used, place, parts, rfl, listed, all, rfl⟩ :=
            takesItems_of_gives inner (by omega) read
          refine ⟨⟨.symbol .openBracket, offset⟩ :: (used ++ [⟨.symbol .closeBracket, place⟩]),
            by simp, ?_⟩
          simpa using Derives.array all listed
        · obtain ⟨entries, read, rfl⟩ := gives_readPrimary_object.mp gives
          obtain ⟨used, place, parts, rfl, listed, keys, all, rfl⟩ :=
            takesEntries_of_gives inner (by omega) read
          refine ⟨⟨.symbol .openBrace, offset⟩ :: (used ++ [⟨.symbol .closeBrace, place⟩]),
            by simp, ?_⟩
          simpa using Derives.object keys all listed
      · exact absurd gives (not_gives_readPrimary opens)

/-- What stands on the left, together with the accesses after it. -/
theorem takes_of_gives_readAccesses {front tokens rest : List Spanned} {base value : Expr}
    (fewer : tokens.length < bound) (left : Derives .access (front.map Spanned.token) base)
    (gives : Gives (readAccesses finish base tokens) value rest) :
    Takes .access (front ++ tokens) value rest := by
  induction count : tokens.length using Nat.strongRecOn generalizing front tokens base
  rename_i length ih
  by_cases stop : ∀ mark ∈ accessMarks, ¬ Starts mark tokens
  · obtain ⟨rfl, rfl⟩ := (gives_readAccesses_stop stop).mp gives
    exact ⟨front, rfl, left⟩
  · obtain ⟨mark, access, offset, others, rfl⟩ : ∃ mark ∈ accessMarks, Starts mark tokens :=
      Classical.byContradiction fun none => stop fun mark access starts =>
        none ⟨mark, access, starts⟩
    rw [List.length_cons] at count fewer
    simp only [accessMarks, List.mem_cons, List.not_mem_nil, or_false] at access
    rcases access with rfl | rfl | rfl
    · obtain ⟨property, place, after, rfl, more⟩ := gives_readAccesses_member.mp gives
      rw [List.length_cons] at count fewer
      have longer : Derives .access (List.map Spanned.token (front ++ [⟨.symbol .dot, offset⟩,
          ⟨.word property, place⟩])) (.member base property) := by
        simpa using Derives.member property left
      simpa using ih after.length (by omega) (by omega) longer more rfl
    · obtain ⟨key, middle, read, place, after, closed, more⟩ := gives_readAccesses_index.mp gives
      rw [gives_takeMark] at closed
      subst closed
      obtain ⟨used, rfl, derives⟩ := inner others (by omega) _ _ read
      rw [List.length_append, List.length_cons] at count fewer
      have longer : Derives .access (List.map Spanned.token (front ++
          ⟨.symbol .openBracket, offset⟩ :: (used ++ [⟨.symbol .closeBracket, place⟩])))
          (.index base key) := by
        simpa using Derives.index left derives
      simpa using ih after.length (by omega) (by omega) longer more rfl
    · obtain ⟨arguments, middle, read, more⟩ := gives_readAccesses_call.mp gives
      obtain ⟨used, place, parts, rfl, listed, all, rfl⟩ :=
        takesItems_of_gives inner (by omega) read
      rw [List.length_append, List.length_cons] at count fewer
      have longer : Derives .access (List.map Spanned.token (front ++
          ⟨.symbol .openParen, offset⟩ :: (used ++ [⟨.symbol .closeParen, place⟩])))
          (.call base (parts.map Prod.snd)) := by
        simpa using Derives.call left all listed
      simpa using ih middle.length (by omega) (by omega) longer more rfl

theorem takes_of_gives_readPostfix {tokens rest : List Spanned} {value : Expr}
    (fewer : tokens.length ≤ bound)
    (plain : ∀ first ∈ tokens.head?, unaryOperator? first.token = none)
    (gives : Gives (readPostfix finish tokens) value rest) : Takes .access tokens value rest := by
  obtain ⟨base, middle, read, more⟩ := gives_readPostfix.mp gives
  obtain ⟨used, rfl, derives⟩ := takes_of_gives_readPrimary inner fewer plain read
  have shorter := read.shorter
  exact takes_of_gives_readAccesses inner (by omega) (.tighter derives) more

/-- The operators before an operand, and the operand. -/
theorem takes_of_gives_readUnary {tokens rest : List Spanned} {value : Expr}
    (fewer : tokens.length ≤ bound) (gives : Gives (readUnary finish tokens) value rest) :
    Takes .unary tokens value rest := by
  induction tokens generalizing value with
  | nil =>
    rw [readUnary_plain (by simp)] at gives
    exact .tighter (takes_of_gives_readPostfix inner fewer (by simp) gives)
  | cons first others ih =>
    obtain ⟨token, offset⟩ := first
    cases found : unaryOperator? token with
    | none =>
      have plain : ∀ first ∈ (⟨token, offset⟩ :: others : List Spanned).head?,
          unaryOperator? first.token = none := by
        simpa using found
      rw [readUnary_plain plain] at gives
      exact .tighter (takes_of_gives_readPostfix inner fewer plain gives)
    | some op =>
      obtain ⟨operand, read, rfl⟩ := (gives_readUnary_operator found).mp gives
      rw [List.length_cons] at fewer
      obtain ⟨used, rfl, derives⟩ := ih (by omega) read
      refine ⟨⟨token, offset⟩ :: used, rfl, ?_⟩
      rw [List.map_cons, unaryOperator?_eq_some.mp found]
      exact .unary derives

/-- The operands of a level and of all tighter ones. -/
theorem takes_of_gives_readLevel (above : Nat) {depth : Nat} (total : depth + above = 6) :
    ∀ tokens : List Spanned, tokens.length ≤ bound → ∀ value rest,
      Gives (readLevel finish depth tokens) value rest →
        Takes (Level.atDepth depth) tokens value rest := by
  induction above generalizing depth with
  | zero =>
    intro tokens fewer value rest gives
    cases total
    rw [readLevel_six] at gives
    exact takes_of_gives_readUnary inner fewer gives
  | succ above ih =>
    intro tokens fewer value rest gives
    have below : depth < 6 := by omega
    have operand := ih (show depth + 1 + above = 6 by omega)
    obtain ⟨left, middle, read, more⟩ := (gives_readLevel below).mp gives
    obtain ⟨used, rfl, derives⟩ := operand tokens fewer _ _ read
    rw [← Level.next_atDepth below] at derives
    rw [List.length_append] at fewer
    exact takes_of_gives_readOperands below operand (by omega) (.tighter derives) more

theorem takes_of_gives_readConditional {tokens rest : List Spanned} {value : Expr}
    (fewer : tokens.length ≤ bound) (gives : Gives (readConditional finish tokens) value rest) :
    Takes .conditional tokens value rest := by
  obtain ⟨test, middle, read, goes⟩ := gives_readConditional.mp gives
  obtain ⟨used, rfl, derives⟩ := takes_of_gives_readLevel inner 6 rfl tokens fewer _ _ read
  rcases goes with ⟨place, chosen, rfl, choice⟩ | ⟨_, rfl, rfl⟩
  · obtain ⟨yes, after, first, offset, others, colon, no, last, second, rfl, rfl⟩ := choice
    rw [gives_takeMark] at colon
    subst colon
    rw [List.length_append, List.length_cons] at fewer
    obtain ⟨left, rfl, derivesYes⟩ := inner chosen (by omega) _ _ first
    rw [List.length_append, List.length_cons] at fewer
    obtain ⟨right, rfl, derivesNo⟩ := inner others (by omega) _ _ second
    refine ⟨used ++ ⟨.symbol .question, place⟩ :: (left ++ ⟨.symbol .colon, offset⟩ :: right),
      by simp, ?_⟩
    simpa using Derives.conditional derives derivesYes derivesNo
  · exact ⟨used, rfl, .tighter derives⟩

end Sound

/-- **What is read derives its value.** -/
theorem takes_of_gives {tokens rest : List Spanned} {value : Expr}
    (gives : Gives (readConditional finish tokens) value rest) :
    Takes .conditional tokens value rest := by
  have sound : ∀ bound, SoundBelow finish bound := by
    intro bound
    induction bound with
    | zero => exact fun tokens fewer => absurd fewer (Nat.not_lt_zero _)
    | succ bound ih =>
      intro tokens fewer value rest gives
      exact takes_of_gives_readConditional ih (Nat.le_of_lt_succ fewer) gives
  exact sound (tokens.length + 1) tokens (Nat.lt_succ_self _) value rest gives

/-! ### What is derived is read -/

/-- The marks that can stand after a complete expression. -/
def closingMarks : List Punctuation :=
  [.closeParen, .closeBracket, .closeBrace, .comma, .colon]

/-- No expression goes on with these tokens. -/
def Closed (tokens : List Spanned) : Prop :=
  ∀ first ∈ tokens.head?, ∃ mark ∈ closingMarks, first.token = .symbol mark

/-- No operand goes on with these tokens: there is no access, and no operator of a depth or of a
tighter one. -/
structure Ends (depth : Nat) (tokens : List Spanned) : Prop where
  access : ∀ mark ∈ accessMarks, ¬ Starts mark tokens
  operator : ∀ first ∈ tokens.head?, ∀ deeper, depth ≤ deeper →
    operator? deeper first.token = none

theorem Ends.deeper {depth deeper : Nat} {tokens : List Spanned} (ends : Ends depth tokens)
    (below : depth ≤ deeper) : Ends deeper tokens :=
  ⟨ends.access, fun first member other far =>
    ends.operator first member other (Nat.le_trans below far)⟩

theorem starts_cons {mark other : Punctuation} {offset : Nat} {rest : List Spanned}
    (starts : Starts mark (⟨.symbol other, offset⟩ :: rest)) : other = mark := by
  obtain ⟨_, _, same⟩ := starts
  cases same
  rfl

/-- A mark that starts no access ends an operand of the depths at which it is no operator. -/
theorem ends_cons {depth offset : Nat} {mark : Punctuation} {rest : List Spanned}
    (access : mark ∉ accessMarks)
    (operator : ∀ deeper, depth ≤ deeper → operator? deeper (.symbol mark) = none) :
    Ends depth (⟨.symbol mark, offset⟩ :: rest) := by
  refine ⟨fun other member starts => access (starts_cons starts ▸ member), ?_⟩
  intro first member deeper far
  cases member
  exact operator deeper far

/-- An operator ends the operands of all tighter levels. -/
theorem ends_of_operator {depth : Nat} {operator : Operator}
    (member : operator ∈ (Level.atDepth depth).operators) (offset : Nat) (rest : List Spanned) :
    Ends (depth + 1) (⟨.symbol operator.mark, offset⟩ :: rest) := by
  refine ends_cons ?_ fun deeper far => ?_
  · cases operator with
    | binary op => cases op <;> decide
    | logical op => cases op <;> decide
  · rw [Option.eq_none_iff_forall_ne_some]
    intro other found
    obtain ⟨inside, same⟩ := operator?_eq_some.mp found
    have equal : other = operator := by
      have marks := Token.symbol.inj same
      have one := ofMark?_eq_some.mpr marks
      rw [ofMark?_eq_some.mpr rfl] at one
      exact (Option.some.inj one).symm
    subst equal
    have here := operator?_level (operator?_eq_some.mpr ⟨member, rfl⟩)
    have there := operator?_level found
    omega

theorem ends_of_ofMark? {mark : Punctuation} (access : mark ∉ accessMarks)
    (plain : Operator.ofMark? mark = none) (offset : Nat) (rest : List Spanned) :
    Ends 0 (⟨.symbol mark, offset⟩ :: rest) := by
  refine ends_cons access fun deeper _ => ?_
  rw [operator?, plain]
  rfl

theorem closed_cons {mark : Punctuation} (closes : mark ∈ closingMarks) (offset : Nat)
    (rest : List Spanned) : Closed (⟨.symbol mark, offset⟩ :: rest) := by
  intro first member
  cases member
  exact ⟨mark, closes, rfl⟩

/-- Where no expression goes on, no operand and no conditional does. -/
theorem Closed.ends {tokens : List Spanned} (closed : Closed tokens) :
    Ends 0 tokens ∧ ¬ Starts .question tokens := by
  cases tokens with
  | nil =>
    have nothing : ∀ mark, ¬ Starts mark [] := by
      rintro mark ⟨_, _, same⟩
      cases same
    exact ⟨⟨fun mark _ => nothing mark, by simp⟩, nothing .question⟩
  | cons first rest =>
    obtain ⟨token, offset⟩ := first
    obtain ⟨mark, closes, same⟩ := closed _ rfl
    cases same
    simp only [closingMarks, List.mem_cons, List.not_mem_nil, or_false] at closes
    refine ⟨ends_of_ofMark? ?_ ?_ offset rest, fun starts => ?_⟩
    · rcases closes with rfl | rfl | rfl | rfl | rfl <;> decide
    · rcases closes with rfl | rfl | rfl | rfl | rfl <;> rfl
    · cases starts_cons starts
      simp at closes

/-- Tokens are read at a depth as the left operand of what goes on after them. -/
def CompletesOperand (finish depth : Nat) (tokens : List Token) (value : Expr) : Prop :=
  ∀ used middle : List Spanned, used.map Spanned.token = tokens → Ends (depth + 1) middle →
    ∀ whole rest, Gives (readOperands finish depth value middle) whole rest →
      Gives (readLevel finish depth (used ++ middle)) whole rest

/-- How tokens are read that derive a value at a level. -/
def Completes (finish : Nat) : Level → List Token → Expr → Prop
  | .conditional, tokens, value =>
    ∀ used rest : List Spanned, used.map Spanned.token = tokens → Closed rest →
      Gives (readConditional finish (used ++ rest)) value rest
  | .disjunction, tokens, value => CompletesOperand finish 0 tokens value
  | .conjunction, tokens, value => CompletesOperand finish 1 tokens value
  | .equality, tokens, value => CompletesOperand finish 2 tokens value
  | .relational, tokens, value => CompletesOperand finish 3 tokens value
  | .additive, tokens, value => CompletesOperand finish 4 tokens value
  | .multiplicative, tokens, value => CompletesOperand finish 5 tokens value
  | .unary, tokens, value =>
    ∀ used rest : List Spanned, used.map Spanned.token = tokens → Ends 6 rest →
      Gives (readUnary finish (used ++ rest)) value rest
  | .access, tokens, value =>
    ∀ used middle : List Spanned, used.map Spanned.token = tokens →
      ∀ whole rest, Gives (readAccesses finish value middle) whole rest →
        Gives (readPostfix finish (used ++ middle)) whole rest
  | .primary, tokens, value =>
    ∀ used rest : List Spanned, used.map Spanned.token = tokens →
      Gives (readPrimary finish (used ++ rest)) value rest

theorem completes_atDepth {depth : Nat} (below : depth < 6) {tokens : List Token} {value : Expr} :
    Completes finish (Level.atDepth depth) tokens value ↔
      CompletesOperand finish depth tokens value := by
  match depth with
  | 0 | 1 | 2 | 3 | 4 | 5 => exact Iff.rfl
  | depth + 6 => omega

/-- Tokens are read at a depth as a whole where no operand goes on after them. -/
theorem gives_readLevel_of_completes {depth : Nat} (bound : depth ≤ 6) {tokens : List Token}
    {value : Expr} (completes : Completes finish (Level.atDepth depth) tokens value)
    {used rest : List Spanned} (same : used.map Spanned.token = tokens) (ends : Ends depth rest) :
    Gives (readLevel finish depth (used ++ rest)) value rest := by
  rcases Nat.lt_or_eq_of_le bound with below | rfl
  · have shallow := ends.deeper (Nat.le_succ _)
    refine (completes_atDepth below).mp completes used rest same shallow _ _ ?_
    exact (gives_readOperands_stop fun first member =>
      ends.operator first member depth (Nat.le_refl _)).mpr ⟨rfl, rfl⟩
  · rw [readLevel_six]
    exact completes used rest same ends

/-- An expression of the next tighter level. -/
theorem completes_tighter {level : Level} {tokens : List Token} {value : Expr}
    (derives : Derives level.next tokens value)
    (completes : Completes finish level.next tokens value) :
    Completes finish level tokens value := by
  have operand : ∀ depth, depth < 6 → level = Level.atDepth depth →
      Completes finish level tokens value := by
    rintro depth below rfl
    rw [Level.next_atDepth below] at completes
    refine (completes_atDepth below).mpr fun used middle same ends whole rest gives => ?_
    exact (gives_readLevel below).mpr
      ⟨value, middle, gives_readLevel_of_completes below completes same ends, gives⟩
  cases level with
  | conditional =>
    intro used rest same closed
    obtain ⟨ends, other⟩ := closed.ends
    exact gives_readConditional.mpr ⟨value, rest,
      gives_readLevel_of_completes (Nat.zero_le 6) completes same ends, Or.inr ⟨other, rfl, rfl⟩⟩
  | disjunction => exact operand 0 (by decide) rfl
  | conjunction => exact operand 1 (by decide) rfl
  | equality => exact operand 2 (by decide) rfl
  | relational => exact operand 3 (by decide) rfl
  | additive => exact operand 4 (by decide) rfl
  | multiplicative => exact operand 5 (by decide) rfl
  | unary =>
    intro used rest same ends
    obtain ⟨first, others, rfl, _, plain⟩ := derives.head
    obtain ⟨head, tail, rfl, rfl, _⟩ := List.map_eq_cons_iff.mp same
    rw [readUnary_plain (by simpa using plain (Nat.le_refl _))]
    exact completes _ rest same _ _ ((gives_readAccesses_stop ends.access).mpr ⟨rfl, rfl⟩)
  | access =>
    intro used middle same whole rest gives
    exact gives_readPostfix.mpr ⟨value, middle, completes used middle same, gives⟩
  | primary => exact completes

/-! ### Tokens with their offsets -/

/-- Tokens around another one. -/
theorem exists_around {used : List Spanned} {first second : List Token} {token : Token}
    (same : used.map Spanned.token = first ++ token :: second) :
    ∃ front offset back, front.map Spanned.token = first ∧ back.map Spanned.token = second ∧
      ∀ rest, used ++ rest = front ++ ⟨token, offset⟩ :: (back ++ rest) := by
  obtain ⟨front, others, rfl, fronts, backs⟩ := List.map_eq_append_iff.mp same
  obtain ⟨⟨_, offset⟩, back, rfl, rfl, seconds⟩ := List.map_eq_cons_iff.mp backs
  exact ⟨front, offset, back, fronts, seconds, fun rest => by simp⟩

/-- Tokens between two others. -/
theorem exists_between {used : List Spanned} {inside : List Token} {opener closer : Token}
    (same : used.map Spanned.token = opener :: (inside ++ [closer])) :
    ∃ place within offset, within.map Spanned.token = inside ∧
      ∀ rest, used ++ rest = ⟨opener, place⟩ :: (within ++ ⟨closer, offset⟩ :: rest) := by
  obtain ⟨⟨_, place⟩, others, rfl, rfl, insides⟩ := List.map_eq_cons_iff.mp same
  obtain ⟨within, offset, none, insides, nothing, split⟩ := exists_around insides
  cases List.map_eq_nil_iff.mp nothing
  exact ⟨place, within, offset, insides, fun rest => congrArg (_ :: ·) (split rest)⟩

/-! ### The cases of a derivation -/

/-- Two operands joined by an operator of their level. -/
theorem completes_joined {level : Level} {operator : Operator} {first second : List Token}
    {left right : Expr} (member : operator ∈ level.operators)
    (leftSide : Completes finish level first left)
    (rightSide : Completes finish level.next second right) :
    Completes finish level (first ++ .symbol operator.mark :: second)
      (operator.apply left right) := by
  obtain ⟨depth, below, rfl⟩ := Level.exists_depth member
  rw [Level.next_atDepth below] at rightSide
  refine (completes_atDepth below).mpr fun used middle same ends whole rest gives => ?_
  obtain ⟨front, offset, back, fronts, backs, split⟩ := exists_around same
  rw [split]
  refine (completes_atDepth below).mp leftSide front _ fronts
    (ends_of_operator member offset _) whole rest ?_
  exact (gives_readOperands_more (operator?_eq_some.mpr ⟨member, rfl⟩)).mpr
    ⟨right, middle, gives_readLevel_of_completes below rightSide backs ends, gives⟩

/-- A condition and two conditionals. -/
theorem completes_conditional {asked chosen other : List Token} {test yes no : Expr}
    (condition : Completes finish .disjunction asked test)
    (first : Completes finish .conditional chosen yes)
    (second : Completes finish .conditional other no) :
    Completes finish .conditional
      (asked ++ .symbol .question :: (chosen ++ .symbol .colon :: other))
      (.conditional test yes no) := by
  intro used rest same closed
  obtain ⟨front, place, choices, fronts, backs, split⟩ := exists_around same
  obtain ⟨middle, offset, final, middles, finals, apart⟩ := exists_around backs
  rw [split, apart]
  exact gives_readConditional.mpr ⟨test, _,
    gives_readLevel_of_completes (Nat.zero_le 6) condition fronts
      (ends_of_ofMark? (by decide) rfl place _),
    Or.inl ⟨place, _, rfl, yes, _, first middle _ middles (closed_cons (by decide) offset _),
      offset, _, gives_takeMark.mpr rfl, no, rest, second final rest finals closed, rfl, rfl⟩⟩

/-- The first token of an expression is no closing mark. -/
theorem not_starts_of_derives {level : Level} {tokens : List Token} {value : Expr}
    (derives : Derives level tokens value) {mark : Punctuation} (closes : mark ∉ openingMarks)
    {used : List Spanned} (same : used.map Spanned.token = tokens) (rest : List Spanned) :
    ¬ Starts mark (used ++ rest) := by
  rintro ⟨offset, others, starts⟩
  obtain ⟨first, more, rfl, opens, _⟩ := derives.head
  obtain ⟨head, tail, rfl, rfl, _⟩ := List.map_eq_cons_iff.mp same
  rw [List.cons_append, List.cons.injEq] at starts
  rw [starts.1] at opens
  exact closes opens

/-- Items separated by commas are read up to the closing mark. -/
theorem gives_readItems_of_listed {close : Punctuation}
    (closes : close = .closeParen ∨ close = .closeBracket) {parts : List (List Token)}
    {tokens : List Token} (listed : Listed parts tokens) {items : List (List Token × Expr)}
    (named : items.map Prod.fst = parts)
    (derives : ∀ item ∈ items, Derives .conditional item.1 item.2)
    (completes : ∀ item ∈ items, Completes finish .conditional item.1 item.2)
    {used : List Spanned} (same : used.map Spanned.token = tokens) (offset : Nat)
    (rest : List Spanned) :
    Gives (readItems finish close (used ++ ⟨.symbol close, offset⟩ :: rest))
      (items.map Prod.snd) rest := by
  have closing : close ∈ closingMarks ∧ close ∉ openingMarks ∧ close ≠ .comma := by
    rcases closes with rfl | rfl <;> decide
  obtain ⟨ends, outside, other⟩ := closing
  induction listed generalizing items used with
  | empty =>
    cases List.map_eq_nil_iff.mp named
    cases List.map_eq_nil_iff.mp same
    exact gives_readItems_close.mpr ⟨rfl, rfl⟩
  | last part =>
    obtain ⟨⟨_, value⟩, none, rfl, rfl, nothing⟩ := List.map_eq_cons_iff.mp named
    cases List.map_eq_nil_iff.mp nothing
    exact (gives_readItems_item (not_starts_of_derives (derives _ List.mem_cons_self) outside
      same _)).mpr ⟨value, _, completes _ List.mem_cons_self used _ same
        (closed_cons ends offset rest), Or.inr ⟨fun starts => other (starts_cons starts), offset,
          gives_takeMark.mpr rfl, rfl⟩⟩
  | more _ ih =>
    obtain ⟨⟨_, value⟩, others, rfl, rfl, names⟩ := List.map_eq_cons_iff.mp named
    obtain ⟨front, comma, later, fronts, laters, split⟩ := exists_around same
    rw [split]
    exact (gives_readItems_item (not_starts_of_derives (derives _ List.mem_cons_self) outside
      fronts _)).mpr ⟨value, _, completes _ List.mem_cons_self front _ fronts
        (closed_cons (by decide) comma _), Or.inl ⟨comma, _, rfl, _, ih names
          (fun item member => derives item (List.mem_cons_of_mem _ member))
          (fun item member => completes item (List.mem_cons_of_mem _ member)) laters, rfl⟩⟩

/-- Entries separated by commas are read up to the closing brace. -/
theorem gives_readEntries_of_listed {parts : List (List Token)} {tokens : List Token}
    (listed : Listed parts tokens) {entries : List Entry}
    (named : entries.map Entry.written = parts)
    (keyed : ∀ entry ∈ entries, Keyed entry.key entry.property)
    (completes : ∀ entry ∈ entries, Completes finish .conditional entry.tokens entry.value)
    {used : List Spanned} (same : used.map Spanned.token = tokens) (before offset : Nat)
    (rest : List Spanned) :
    Gives (readEntries finish before (used ++ ⟨.symbol .closeBrace, offset⟩ :: rest))
      (entries.map fun entry => (entry.property, entry.value)) rest := by
  have key : ∀ {token : Token} {property : String}, Keyed token property →
      token ≠ .symbol .closeBrace := by
    rintro token property keyed rfl
    exact not_keyed_symbol keyed
  induction listed generalizing entries used before with
  | empty =>
    cases List.map_eq_nil_iff.mp named
    cases List.map_eq_nil_iff.mp same
    exact gives_readEntries_close.mpr ⟨rfl, rfl⟩
  | last part =>
    obtain ⟨entry, none, rfl, rfl, nothing⟩ := List.map_eq_cons_iff.mp named
    cases List.map_eq_nil_iff.mp nothing
    obtain ⟨⟨_, place⟩, tail, rfl, rfl, tails⟩ := List.map_eq_cons_iff.mp same
    obtain ⟨⟨_, colon⟩, value, rfl, rfl, values⟩ := List.map_eq_cons_iff.mp tails
    have here := keyed _ List.mem_cons_self
    refine (gives_readEntries_entry (key here)).mpr ⟨entry.property, here, colon, _,
      gives_takeMark.mpr rfl, entry.value, _, completes _ List.mem_cons_self value _ values
        (closed_cons (by decide) offset rest), Or.inr ⟨fun starts => ?_, offset,
          gives_takeMark.mpr rfl, rfl⟩⟩
    cases starts_cons starts
  | more _ ih =>
    obtain ⟨entry, others, rfl, rfl, names⟩ := List.map_eq_cons_iff.mp named
    obtain ⟨front, comma, later, fronts, laters, split⟩ := exists_around same
    obtain ⟨⟨_, place⟩, tail, rfl, rfl, tails⟩ := List.map_eq_cons_iff.mp fronts
    obtain ⟨⟨_, colon⟩, value, rfl, rfl, values⟩ := List.map_eq_cons_iff.mp tails
    rw [split]
    have here := keyed _ List.mem_cons_self
    exact (gives_readEntries_entry (key here)).mpr ⟨entry.property, here, colon, _,
      gives_takeMark.mpr rfl, entry.value, _, completes _ List.mem_cons_self value _ values
        (closed_cons (by decide) comma _), Or.inl ⟨comma, _, rfl, _, ih names
          (fun entry member => keyed entry (List.mem_cons_of_mem _ member))
          (fun entry member => completes entry (List.mem_cons_of_mem _ member)) laters comma,
          rfl⟩⟩

/-- A single token is read as the expression that it is. -/
theorem completes_atom {token : Token} {value : Expr} (atom : atom? token = some value) :
    Completes finish .primary [token] value := by
  intro used rest same
  obtain ⟨⟨_, offset⟩, none, rfl, rfl, nothing⟩ := List.map_eq_cons_iff.mp same
  cases List.map_eq_nil_iff.mp nothing
  exact (gives_readPrimary_atom atom).mpr ⟨rfl, rfl⟩

theorem atom?_keyword {word : String} {value : Value} (member : (word, value) ∈ keywords) :
    atom? (.word word) = some (.literal value) := by
  simp only [keywords, List.mem_cons, Prod.mk.injEq, List.not_mem_nil, or_false] at member
  rcases member with ⟨rfl, rfl⟩ | ⟨rfl, rfl⟩ | ⟨rfl, rfl⟩ | ⟨rfl, rfl⟩ <;> rfl

theorem atom?_name {word : String} (free : word ∉ reserved) :
    atom? (.word word) = some (.ident word) := by
  simp only [reserved, keywords, List.map_cons, List.map_nil, List.mem_cons, List.not_mem_nil,
    or_false, not_or] at free
  simp [atom?, ofWord, free]

/-- **What is derived is read**: tokens that derive a value are read as that value. -/
theorem completes_of_derives (finish : Nat) {level : Level} {tokens : List Token} {value : Expr}
    (derives : Derives level tokens value) : Completes finish level tokens value := by
  induction derives with
  | tighter derives ih => exact completes_tighter derives ih
  | conditional _ _ _ condition first second =>
    exact completes_conditional condition first second
  | joined member _ _ left right => exact completes_joined member left right
  | @unary op tokens operand _ ih =>
    intro used rest same ends
    obtain ⟨⟨_, offset⟩, others, rfl, rfl, tail⟩ := List.map_eq_cons_iff.mp same
    exact (gives_readUnary_operator (unaryOperator?_eq_some.mpr rfl)).mpr
      ⟨operand, ih others rest tail ends, rfl⟩
  | member property _ ih =>
    intro used middle same whole rest gives
    obtain ⟨front, place, back, fronts, backs, split⟩ := exists_around same
    obtain ⟨⟨_, offset⟩, none, rfl, rfl, nothing⟩ := List.map_eq_cons_iff.mp backs
    cases List.map_eq_nil_iff.mp nothing
    rw [split]
    exact ih front _ fronts whole rest
      (gives_readAccesses_member.mpr ⟨property, offset, middle, rfl, gives⟩)
  | @index tokens inside base key _ _ ih keyIh =>
    intro used middle same whole rest gives
    obtain ⟨front, back, rfl, fronts, backs⟩ := List.map_eq_append_iff.mp same
    obtain ⟨place, within, offset, insides, split⟩ := exists_between backs
    rw [List.append_assoc, split]
    exact ih front _ fronts whole rest (gives_readAccesses_index.mpr ⟨key, _,
      keyIh within _ insides (closed_cons (by decide) offset middle), offset, middle,
      gives_takeMark.mpr rfl, gives⟩)
  | @call tokens inside callee arguments _ derives listed ih argumentsIh =>
    intro used middle same whole rest gives
    obtain ⟨front, back, rfl, fronts, backs⟩ := List.map_eq_append_iff.mp same
    obtain ⟨place, within, offset, insides, split⟩ := exists_between backs
    rw [List.append_assoc, split]
    exact ih front _ fronts whole rest (gives_readAccesses_call.mpr ⟨_, middle,
      gives_readItems_of_listed (Or.inl rfl) listed rfl derives argumentsIh insides offset middle,
      gives⟩)
  | number amount => exact completes_atom rfl
  | string text => exact completes_atom rfl
  | keyword member => exact completes_atom (atom?_keyword member)
  | name free => exact completes_atom (atom?_name free)
  | parentheses _ ih =>
    intro used rest same
    obtain ⟨place, within, offset, insides, split⟩ := exists_between same
    rw [split]
    exact gives_readPrimary_parentheses.mpr ⟨_, _, ih within _ insides
      (closed_cons (by decide) offset rest), offset, gives_takeMark.mpr rfl, rfl⟩
  | array derives listed ih =>
    intro used rest same
    obtain ⟨place, within, offset, insides, split⟩ := exists_between same
    rw [split]
    exact gives_readPrimary_array.mpr ⟨_, gives_readItems_of_listed (Or.inr rfl) listed rfl
      derives ih insides offset rest, rfl⟩
  | object keyed _ listed ih =>
    intro used rest same
    obtain ⟨place, within, offset, insides, split⟩ := exists_between same
    rw [split]
    exact gives_readPrimary_object.mpr ⟨_, gives_readEntries_of_listed listed rfl keyed ih insides
      place offset rest, rfl⟩

/-! ### The parser -/

/-- **The parser accepts exactly the tokens of an expression**, and gives what they derive. -/
theorem ofTokens_eq_ok_iff {tokens : List Spanned} {value : Expr} :
    ofTokens finish tokens = .ok value ↔ Derives .conditional (tokens.map Spanned.token) value := by
  constructor
  · intro parsed
    obtain ⟨⟨found, rest, shorter⟩, read, parsed⟩ := Text.exists_of_bind_eq_ok parsed
    cases rest with
    | cons first others => cases parsed
    | nil =>
      cases parsed
      obtain ⟨used, same, derives⟩ := takes_of_gives ⟨shorter, read⟩
      rw [List.append_nil] at same
      subst same
      exact derives
  · intro derives
    have gives := completes_of_derives finish derives tokens [] rfl (by simp [Closed])
    rw [List.append_nil] at gives
    obtain ⟨shorter, read⟩ := gives
    rw [ofTokens, read]
    rfl

/-- **Tokens derive at most one expression.** -/
theorem Derives.unique {tokens : List Token} {value other : Expr}
    (one : Derives .conditional tokens value) (two : Derives .conditional tokens other) :
    value = other := by
  have spanned : (tokens.map fun token => (⟨token, 0⟩ : Spanned)).map Spanned.token = tokens := by
    rw [List.map_map]
    exact List.map_id tokens
  have parsed : ∀ found, Derives .conditional tokens found →
      ofTokens 0 (tokens.map fun token => ⟨token, 0⟩) = .ok found := fun found derives =>
    ofTokens_eq_ok_iff.mpr (spanned.symm ▸ derives)
  exact Except.ok.inj ((parsed value one).symm.trans (parsed other two))

end DataBind.Expr
