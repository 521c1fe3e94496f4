/-
**Where a reading of tokens stops.**

Every reader of the parser goes from place to place, token by token: what it takes leads to the
place behind an expression, and where it fails, the tokens before lead to a place at which the next
token is refused, or at which the input has ended too early. The proof follows the readers; every
expression inside of another is read from fewer tokens.

* `Stops`: a reading has failed at a token that is refused, or at the end;
* `Follows`: what a reader does to the place it starts from;
* `Follows.bind`, `follows_takeMark`: readers one after the other, and a single mark;
* `follows_readConditional`: the reader of expressions;
* `leads_of_ofTokens`, `stops_of_ofTokens`: the parser succeeds at the end of an expression only.
-/

import DataBind.Proofs.Expr.Places

namespace DataBind.Expr

open DataBind.Text

/-! ### From place to place -/

/-- Tokens lead from one place to another. -/
def Leads (place : Place) (tokens : List Spanned) (reached : Place) : Prop :=
  place.run (tokens.map Spanned.token) = some reached

section Leads

variable {place middle reached : Place} {first : Spanned} {front tokens : List Spanned}

theorem leads_nil : Leads place [] place := rfl

theorem Leads.append (one : Leads place front middle) (two : Leads middle tokens reached) :
    Leads place (front ++ tokens) reached := by
  rw [Leads, List.map_append, Place.run_append, one]
  exact two

theorem Leads.cons (one : place.step first.token = some middle)
    (two : Leads middle tokens reached) : Leads place (first :: tokens) reached := by
  rw [Leads, List.map_cons, Place.run_cons, one]
  exact two

end Leads

/-- The offset of the last of the tokens; `before` is that of the token before them. -/
def lastOffset (before : Nat) (tokens : List Spanned) : Nat :=
  tokens.foldl (fun _ token => token.offset) before

theorem lastOffset_append (before : Nat) (front tokens : List Spanned) :
    lastOffset before (front ++ tokens) = lastOffset (lastOffset before front) tokens :=
  List.foldl_append

/-- Where an end of the input is reported at a place: at the last token if a name or a key is due,
and else at the end itself. -/
def Place.report (place : Place) (finish last : Nat) : Nat :=
  match place.due with
  | .name | .key => last
  | _ => finish

/-- **A reading has failed**: at a token that is refused, or at the end of the input. -/
inductive Stops (finish before : Nat) (place : Place) : List Spanned → SyntaxError → Prop
  | token {used rest : List Spanned} {first : Spanned} {reached : Place} {error : SyntaxError} :
      Leads place used reached → reached.step first.token = none →
      error.position = first.offset → Stops finish before place (used ++ first :: rest) error
  | ended {tokens : List Spanned} {reached : Place} {error : SyntaxError} :
      Leads place tokens reached → reached ≠ .final →
      error.position = reached.report finish (lastOffset before tokens) →
      Stops finish before place tokens error

/-- The first token is refused. -/
theorem Stops.refused {finish before : Nat} {place : Place} {first : Spanned} {rest : List Spanned}
    {error : SyntaxError} (refused : place.step first.token = none)
    (position : error.position = first.offset) :
    Stops finish before place (first :: rest) error := by
  have stops : Stops finish before place ([] ++ first :: rest) error :=
    .token leads_nil refused position
  exact stops

/-- What was taken before a reading that has failed. -/
theorem Stops.prepend {finish before : Nat} {place middle : Place} {front tokens : List Spanned}
    {error : SyntaxError} (leads : Leads place front middle)
    (stops : Stops finish (lastOffset before front) middle tokens error) :
    Stops finish before place (front ++ tokens) error := by
  cases stops with
  | token more refused position =>
    rw [← List.append_assoc]
    exact .token (leads.append more) refused position
  | ended more unfinished position =>
    rw [← lastOffset_append] at position
    exact .ended (leads.append more) unfinished position

/-- **What a reader does** to the place it starts from: it leads to another one and leaves tokens
that are as they should be, or it stops. -/
def Follows {α : Type} {length : Nat} (finish before : Nat) (place reached : Place)
    (left : List Spanned → Prop) (tokens : List Spanned) (result : Parsed α length) : Prop :=
  match result with
  | .ok taken => left taken.rest ∧ ∃ used, tokens = used ++ taken.rest ∧ Leads place used reached
  | .error error => Stops finish before place tokens error

/-- Nothing is asked of the tokens that are left. -/
def Anything (_ : List Spanned) : Prop := True

section Follows

variable {α β : Type} {length longer finish before : Nat} {place middle reached : Place}
  {left whole : List Spanned → Prop} {tokens : List Spanned}

/-- A reader that goes on. -/
theorem Follows.bind {first : Parsed α length} {next : Taken Spanned α length → Parsed β longer}
    (head : Follows finish before place middle left tokens first)
    (tail : ∀ taken : Taken Spanned α length, left taken.rest → ∀ before,
      Follows finish before middle reached whole taken.rest (next taken)) :
    Follows finish before place reached whole tokens (first >>= next) := by
  cases first with
  | error cause => exact head
  | ok taken =>
    obtain ⟨rests, used, rfl, leads⟩ := head
    have more := tail taken rests (lastOffset before used)
    show Follows finish before place reached whole (used ++ taken.rest) (next taken)
    cases found : next taken with
    | error cause =>
      rw [found] at more
      exact Stops.prepend leads more
    | ok last =>
      rw [found] at more
      obtain ⟨ends, others, split, further⟩ := more
      exact ⟨ends, used ++ others, by rw [List.append_assoc, ← split], leads.append further⟩

/-- A reader whose value is made into another. -/
theorem Follows.map {first : Parsed α length}
    {next : Taken Spanned α length → Taken Spanned β longer}
    (head : Follows finish before place reached left tokens first)
    (same : ∀ taken, (next taken).rest = taken.rest) :
    Follows finish before place reached left tokens (first >>= fun taken => pure (next taken)) := by
  refine head.bind fun taken rests _ => ?_
  show left (next taken).rest ∧ _
  rw [same]
  exact ⟨rests, [], rfl, leads_nil⟩

/-- A reader that starts behind a token. -/
theorem Follows.cons {first : Spanned} {result : Parsed α length}
    (step : place.step first.token = some middle)
    (tail : Follows finish first.offset middle reached left tokens result) :
    Follows finish before place reached left (first :: tokens) result := by
  have leads : Leads place [first] middle := .cons step leads_nil
  cases result with
  | error cause => exact Stops.prepend leads tail
  | ok taken =>
    obtain ⟨rests, used, split, more⟩ := tail
    exact ⟨rests, first :: used, congrArg _ split, .cons step more⟩

/-- A reader that fails at its first token. -/
theorem follows_refused {first : Spanned} {error : SyntaxError}
    (refused : place.step first.token = none) (position : error.position = first.offset) :
    Follows finish before place reached left (first :: tokens)
      (.error error : Parsed α length) :=
  Stops.refused refused position

/-- A reader that fails without a token. -/
theorem follows_ended {error : SyntaxError} (unfinished : place ≠ .final)
    (position : error.position = place.report finish before) :
    Follows finish before place reached left [] (.error error : Parsed α length) :=
  Stops.ended leads_nil unfinished position

/-- **A mark** leads to the next place, where every other token is refused. -/
theorem follows_takeMark {mark : Punctuation} (step : place.step (.symbol mark) = some reached)
    (refused : ∀ first ∈ tokens.head?, first.token ≠ .symbol mark → place.step first.token = none)
    (unfinished : place ≠ .final) (plain : ∀ last, place.report finish last = finish) :
    Follows finish before place reached Anything tokens (takeMark finish mark tokens) := by
  cases tokens with
  | nil => exact follows_ended unfinished (plain before).symm
  | cons first rest =>
    obtain ⟨token, offset⟩ := first
    by_cases same : token = .symbol mark
    · rw [same, takeMark_self]
      exact ⟨trivial, [_], rfl, .cons step leads_nil⟩
    · have other : token.isMark mark ≠ true := by
        intro marked
        cases token with
        | symbol found => exact same (congrArg Token.symbol (eq_of_beq marked))
        | number _ | string _ | word _ => cases marked
      rw [takeMark, if_neg other]
      exact follows_refused (refused _ rfl same) rfl

end Follows

/-! ### What is refused after an expression -/

/-- An expression has been read to its end: it does not go on with these tokens. -/
structure Read (tokens : List Spanned) : Prop where
  ends : Ends 0 tokens
  asked : ¬ Starts .question tokens

theorem starts_of_head {first : Spanned} {tokens : List Spanned} (head : first ∈ tokens.head?)
    {mark : Punctuation} (same : first.token = .symbol mark) : Starts mark tokens := by
  cases tokens with
  | nil => cases head
  | cons other rest =>
    cases head
    exact ⟨first.offset, rest, by rw [← same]⟩

/-- **Behind an expression that does not go on** a token is refused, unless it closes what is open
or separates its parts. -/
theorem step_nothing {frames : List Frame} {tokens : List Spanned} (read : Read tokens)
    {first : Spanned} (head : first ∈ tokens.head?)
    (closes : ∀ frame ∈ frames.head?, first.token ≠ .symbol frame.closer)
    (separates : first.token = .symbol .comma → Place.separated frames = none) :
    Place.step ⟨.nothing, frames⟩ first.token = none := by
  cases kind : first.token with
  | number _ | string _ | word _ => rfl
  | symbol mark =>
    have access := fun member => read.ends.access mark member (starts_of_head head kind)
    have operator := read.ends.operator first head
    have asked := fun same : mark = .question => read.asked (starts_of_head head (same ▸ kind))
    have close : Place.closed mark frames = none := by
      cases frames with
      | nil => rfl
      | cons frame frames =>
        refine if_neg fun same => closes frame rfl ?_
        rw [kind, same]
    have plain : Operator.ofMark? mark = none := by
      refine Option.eq_none_iff_forall_ne_some.mpr fun found some => ?_
      have none := operator found.level (Nat.zero_le _)
      rw [kind, operator?, some, Option.filter_some, if_pos (beq_self_eq_true _)] at none
      cases none
    show Place.continued frames mark = none
    unfold Place.continued
    split
    · exact absurd (by decide) access
    · exact absurd (by decide) access
    · exact absurd (by decide) access
    · exact absurd rfl asked
    · exact separates kind
    · rw [plain]
      exact close

/-- The mark that closes what is open, behind an expression. -/
theorem follows_closer {finish before : Nat} (frame : Frame) {frames : List Frame}
    {tokens : List Spanned} (read : Read tokens)
    (apart : Starts .comma tokens → Place.separated (frame :: frames) = none) :
    Follows finish before ⟨.nothing, frame :: frames⟩
      ⟨if frame = .choice then .operand else .nothing, frames⟩ Anything tokens
      (takeMark finish frame.closer tokens) := by
  refine follows_takeMark (by cases frame <;> rfl) (fun first head other => ?_)
    (Place.ne_final_of_open _ frame frames) fun _ => rfl
  refine step_nothing read head ?_ fun comma => apart (starts_of_head head comma)
  rintro _ ⟨⟩
  exact other

theorem step_key {frames : List Frame} {token : Token} (other : token ≠ .symbol .closeBrace) :
    Place.step ⟨.key, frames⟩ token = (key? token).map fun _ => ⟨.colon, frames⟩ := by
  cases token with
  | number _ | string _ | word _ => rfl
  | symbol mark => cases mark <;> first | rfl | exact absurd rfl other

theorem step_colon {frames : List Frame} {token : Token} (other : token ≠ .symbol .colon) :
    Place.step ⟨.colon, frames⟩ token = none := by
  cases token with
  | number _ | string _ | word _ => rfl
  | symbol mark => cases mark <;> first | rfl | exact absurd rfl other

theorem step_word {frames : List Frame} {word : String}
    (plain : unaryOperator? (.word word) = none) :
    Place.step ⟨.operand, frames⟩ (.word word) = some ⟨.nothing, frames⟩ := by
  show (if (unaryOperator? (.word word)).isSome then _ else _) = _
  rw [plain]
  rfl

theorem step_operand {frames : List Frame} {mark : Punctuation}
    (other : mark ∉ [Punctuation.openParen, .openBracket, .openBrace])
    (plain : unaryOperator? (.symbol mark) = none) :
    Place.step ⟨.operand, frames⟩ (.symbol mark) = none := by
  cases mark <;> first | rfl | exact absurd (by decide) other | cases plain

/-! ### The start of an item -/

section Items

variable {finish before : Nat} {frame : Frame} {frames : List Frame}

/-- An item starts like every expression. -/
theorem step_item {token : Token} (other : token ≠ .symbol frame.closer) :
    Place.step ⟨.item, frame :: frames⟩ token = Place.step ⟨.operand, frame :: frames⟩ token := by
  cases token with
  | number _ | string _ | word _ => rfl
  | symbol mark =>
    have close : Place.closed mark (frame :: frames) = none :=
      if_neg fun same => other (congrArg Token.symbol same)
    show (Place.closed mark (frame :: frames) <|> _) = _
    rw [close]
    rfl

theorem leads_item {first : Spanned} {rest : List Spanned} {reached : Place}
    (other : first.token ≠ .symbol frame.closer)
    (leads : Leads ⟨.operand, frame :: frames⟩ (first :: rest) reached) :
    Leads ⟨.item, frame :: frames⟩ (first :: rest) reached := by
  rw [Leads, List.map_cons, Place.run_cons] at leads ⊢
  rw [step_item other]
  exact leads

/-- **An item is an expression**, unless the list ends. -/
theorem Follows.item {α : Type} {reached : Place} {left : List Spanned → Prop}
    {tokens : List Spanned} {result : Parsed α tokens.length}
    (other : ¬ Starts frame.closer tokens)
    (follows : Follows finish before ⟨.operand, frame :: frames⟩ reached left tokens result) :
    Follows finish before ⟨.item, frame :: frames⟩ reached left tokens result := by
  have differs : ∀ first ∈ tokens.head?, first.token ≠ .symbol frame.closer :=
    fun first head same => other (starts_of_head head same)
  cases result with
  | ok taken =>
    obtain ⟨rests, used, split, leads⟩ := follows
    refine ⟨rests, used, split, ?_⟩
    cases used with
    | nil =>
      have same : tokens.length = taken.rest.length := congrArg List.length split
      exact absurd taken.shorter (by omega)
    | cons first used => exact leads_item (differs first (by rw [split]; rfl)) leads
  | error cause =>
    cases follows with
    | @token used rest first place _ leads refused position =>
      cases used with
      | nil =>
        cases leads
        exact .refused ((step_item (differs first rfl)).trans refused) position
      | cons head used => exact .token (leads_item (differs head rfl) leads) refused position
    | @ended _ place _ leads unfinished position =>
      cases tokens with
      | nil =>
        cases leads
        exact .ended leads_nil (Place.ne_final_of_due (by decide) _) position
      | cons first rest => exact .ended (leads_item (differs first rfl) leads) unfinished position

end Items

/-! ### The readers -/

theorem read_nil : Read [] :=
  have closed : Closed [] := by simp [Closed]
  ⟨closed.ends.1, closed.ends.2⟩

/-- Beyond the depths of the operators there are none. -/
theorem ends_six {tokens : List Spanned} (access : ∀ mark ∈ accessMarks, ¬ Starts mark tokens) :
    Ends 6 tokens := by
  refine ⟨access, fun first _ deeper far => Option.eq_none_iff_forall_ne_some.mpr ?_⟩
  intro operator found
  obtain ⟨member, _⟩ := operator?_eq_some.mp found
  obtain ⟨beyond, rfl⟩ := Nat.exists_eq_add_of_le' far
  cases member

/-- The reader of expressions leads behind an expression, for fewer tokens than a bound. -/
def FollowsBelow (finish bound : Nat) : Prop :=
  ∀ tokens : List Spanned, tokens.length < bound → ∀ before frames,
    Follows finish before ⟨.operand, frames⟩ ⟨.nothing, frames⟩ Read tokens
      (readConditional finish tokens)

/-- The further operands of a depth. -/
theorem follows_readOperands {finish bound depth : Nat}
    (operand : ∀ tokens : List Spanned, tokens.length ≤ bound → ∀ before frames,
      Follows finish before ⟨.operand, frames⟩ ⟨.nothing, frames⟩ (Ends (depth + 1)) tokens
        (readLevel finish (depth + 1) tokens))
    {tokens : List Spanned} (fewer : tokens.length ≤ bound) (ends : Ends (depth + 1) tokens)
    (left : Expr) (before : Nat) (frames : List Frame) :
    Follows finish before ⟨.nothing, frames⟩ ⟨.nothing, frames⟩ (Ends depth) tokens
      (readOperands finish depth left tokens) := by
  match tokens with
  | [] =>
    rw [readOperands]
    exact ⟨read_nil.ends.deeper (Nat.zero_le depth), [], rfl, leads_nil⟩
  | ⟨token, offset⟩ :: others =>
    cases found : operator? depth token with
    | none =>
      rw [readOperands, found]
      refine ⟨⟨ends.access, fun first head deeper far => ?_⟩, [], rfl, leads_nil⟩
      rcases Nat.eq_or_lt_of_le far with rfl | beyond
      · cases head
        exact found
      · exact ends.operator first head deeper beyond
    | some operator =>
      rw [readOperands]
      simp only [found]
      obtain ⟨_, rfl⟩ := operator?_eq_some.mp found
      have step : Place.step ⟨.nothing, frames⟩ (.symbol operator.mark) =
          some ⟨.operand, frames⟩ := by
        cases operator with
        | binary op => cases op <;> rfl
        | logical op => cases op <;> rfl
      rw [List.length_cons] at fewer
      refine .cons step ((operand others (by omega) offset frames).bind fun right ends before => ?_)
      have shorter := right.shorter
      exact (follows_readOperands operand (by omega) ends _ before frames).map fun _ => rfl
termination_by tokens.length
decreasing_by exact right.lt_of_lt (Nat.lt_succ_self _)

section Readers

variable {finish bound : Nat} (inner : FollowsBelow finish bound)
include inner

/-- The items of a list, to its end. -/
theorem follows_readItems {frame : Frame} (lists : frame = .arguments ∨ frame = .items)
    {tokens : List Spanned} (fewer : tokens.length < bound) (before : Nat) (frames : List Frame) :
    Follows finish before ⟨.item, frame :: frames⟩ ⟨.nothing, frames⟩ Anything tokens
      (readItems finish frame.closer tokens) := by
  have close : Place.step ⟨.item, frame :: frames⟩ (.symbol frame.closer) =
      some ⟨.nothing, frames⟩ := by rcases lists with rfl | rfl <;> rfl
  have comma : Place.step ⟨.nothing, frame :: frames⟩ (.symbol .comma) =
      some ⟨.item, frame :: frames⟩ := by rcases lists with rfl | rfl <;> rfl
  have whole : frame ≠ .choice := by rcases lists with rfl | rfl <;> decide
  by_cases closes : Starts frame.closer tokens
  · obtain ⟨offset, others, rfl⟩ := closes
    rw [readItems, takeMark_self]
    exact ⟨trivial, [_], rfl, .cons close leads_nil⟩
  · obtain ⟨error, failed⟩ := exists_error_of_takeMark finish closes
    rw [readItems, failed]
    refine Follows.bind ((inner tokens fewer before (frame :: frames)).item closes) ?_
    rintro ⟨item, middle, shorter⟩ read before
    by_cases separates : Starts .comma middle
    · obtain ⟨offset, others, rfl⟩ := separates
      simp only [takeMark_self]
      have less : others.length < tokens.length := Nat.lt_of_succ_lt shorter
      exact .cons comma ((follows_readItems lists (by omega) offset frames).map fun _ => rfl)
    · obtain ⟨cause, missing⟩ := exists_error_of_takeMark finish separates
      simp only [missing]
      have closed : Follows finish before ⟨.nothing, frame :: frames⟩
          ⟨if frame = .choice then .operand else .nothing, frames⟩ Anything middle
          (takeMark finish frame.closer middle) :=
        follows_closer frame read fun starts => absurd starts separates
      rw [if_neg whole] at closed
      exact closed.map fun _ => rfl
termination_by tokens.length

/-- The entries of an object, to its end. -/
theorem follows_readEntries {tokens : List Spanned} (fewer : tokens.length < bound) (before : Nat)
    (frames : List Frame) :
    Follows finish before ⟨.key, .entries :: frames⟩ ⟨.nothing, frames⟩ Anything tokens
      (readEntries finish before tokens) := by
  match tokens with
  | [] =>
    rw [readEntries]
    exact follows_ended (Place.ne_final_of_due (by decide) _) rfl
  | ⟨token, place⟩ :: others =>
    by_cases closes : token = .symbol .closeBrace
    · subst closes
      rw [readEntries]
      exact ⟨trivial, [_], rfl, .cons rfl leads_nil⟩
    · have step := @step_key (.entries :: frames) token closes
      rw [readEntries]
      · cases found : key? token with
        | none => exact follows_refused (by rw [step, found]; rfl) rfl
        | some key =>
          rw [found] at step
          rw [List.length_cons] at fewer
          have marked : Follows finish place ⟨.colon, .entries :: frames⟩
              ⟨.operand, .entries :: frames⟩ Anything others (takeMark finish .colon others) :=
            follows_takeMark rfl (fun first _ => step_colon)
              (Place.ne_final_of_due (by decide) _) fun _ => rfl
          refine .cons step (marked.bind fun colon _ before => ?_)
          have colonShorter := colon.shorter
          refine (inner colon.rest (by omega) before _).bind ?_
          rintro ⟨value, middle, shorter⟩ read before
          by_cases separates : Starts .comma middle
          · obtain ⟨offset, rest, rfl⟩ := separates
            simp only [takeMark_self]
            have less : rest.length < colon.rest.length := Nat.lt_of_succ_lt shorter
            refine .cons (show _ = some ⟨.key, .entries :: frames⟩ from rfl) ?_
            exact (follows_readEntries (by omega) offset frames).map fun _ => rfl
          · obtain ⟨cause, missing⟩ := exists_error_of_takeMark finish separates
            simp only [missing]
            exact (follows_closer .entries read
              fun starts => absurd starts separates).map fun _ => rfl
      · exact closes
termination_by tokens.length

/-- A single token, or what stands in brackets of some kind. -/
theorem follows_readPrimary {tokens : List Spanned} (fewer : tokens.length ≤ bound)
    (plain : ∀ first ∈ tokens.head?, unaryOperator? first.token = none) (before : Nat)
    (frames : List Frame) :
    Follows finish before ⟨.operand, frames⟩ ⟨.nothing, frames⟩ Anything tokens
      (readPrimary finish tokens) := by
  rw [readPrimary.eq_def]
  split
  · exact follows_ended (Place.ne_final_of_due (by decide) _) rfl
  · exact ⟨trivial, [_], rfl, .cons rfl leads_nil⟩
  · exact ⟨trivial, [_], rfl, .cons rfl leads_nil⟩
  · exact ⟨trivial, [_], rfl, .cons (step_word (plain _ rfl)) leads_nil⟩
  · refine .cons (show _ = some ⟨.operand, .parentheses :: frames⟩ from rfl) ?_
    exact (inner _ fewer _ _).bind fun value read before =>
      (follows_closer .parentheses read fun _ => rfl).map fun _ => rfl
  · refine .cons (show _ = some ⟨.item, .items :: frames⟩ from rfl) ?_
    exact (follows_readItems inner (.inr rfl) fewer _ _).map fun _ => rfl
  · refine .cons (show _ = some ⟨.key, .entries :: frames⟩ from rfl) ?_
    exact (follows_readEntries inner fewer _ _).map fun _ => rfl
  · rename_i token offset rest _ _ _ _ _ _
    cases token with
    | symbol mark => exact follows_refused (step_operand (by simp_all) (plain _ rfl)) rfl
    | _ => simp_all

/-- The accesses and calls after an expression. -/
theorem follows_readAccesses {tokens : List Spanned} (fewer : tokens.length < bound) (base : Expr)
    (before : Nat) (frames : List Frame) :
    Follows finish before ⟨.nothing, frames⟩ ⟨.nothing, frames⟩ (Ends 6) tokens
      (readAccesses finish base tokens) := by
  by_cases stop : ∀ mark ∈ accessMarks, ¬ Starts mark tokens
  · have gives : Gives (readAccesses finish base tokens) base tokens :=
      (gives_readAccesses_stop stop).mpr ⟨rfl, rfl⟩
    obtain ⟨_, read⟩ := gives
    rw [read]
    exact ⟨ends_six stop, [], rfl, leads_nil⟩
  · obtain ⟨mark, access, offset, rest, same⟩ : ∃ mark ∈ accessMarks, Starts mark tokens :=
      Classical.byContradiction fun none => stop fun mark access starts =>
        none ⟨mark, access, starts⟩
    have less : rest.length < tokens.length := by rw [same]; exact Nat.lt_succ_self _
    rw [same]
    simp only [accessMarks, List.mem_cons, List.not_mem_nil, or_false] at access
    rcases access with rfl | rfl | rfl
    · refine .cons (show _ = some ⟨.name, frames⟩ from rfl) ?_
      cases rest with
      | nil =>
        rw [readAccesses]
        exact follows_ended (Place.ne_final_of_due (by decide) _) rfl
      | cons first others =>
        obtain ⟨token, place⟩ := first
        cases token with
        | word property =>
          rw [readAccesses]
          have shorter : others.length < tokens.length := Nat.lt_of_succ_lt less
          refine .cons (show _ = some ⟨.nothing, frames⟩ from rfl) ?_
          exact (follows_readAccesses (by omega) _ place frames).map fun _ => rfl
        | number _ | string _ | symbol _ =>
          rw [readAccesses]
          · exact follows_refused rfl rfl
          · simp
    · rw [readAccesses]
      refine .cons (show _ = some ⟨.operand, .index :: frames⟩ from rfl) ?_
      refine (inner rest (by omega) offset _).bind fun key read before => ?_
      have keyShorter := key.shorter
      refine (follows_closer .index read fun _ => rfl).bind fun close _ before => ?_
      have closeShorter := close.shorter
      exact (follows_readAccesses (by omega) _ before frames).map fun _ => rfl
    · rw [readAccesses]
      refine .cons (show _ = some ⟨.item, .arguments :: frames⟩ from rfl) ?_
      refine (follows_readItems inner (.inl rfl) (by omega) offset frames).bind
        fun arguments _ before => ?_
      have shorter := arguments.shorter
      exact (follows_readAccesses (by omega) _ before frames).map fun _ => rfl
termination_by tokens.length

theorem follows_readPostfix {tokens : List Spanned} (fewer : tokens.length ≤ bound)
    (plain : ∀ first ∈ tokens.head?, unaryOperator? first.token = none) (before : Nat)
    (frames : List Frame) :
    Follows finish before ⟨.operand, frames⟩ ⟨.nothing, frames⟩ (Ends 6) tokens
      (readPostfix finish tokens) := by
  rw [readPostfix]
  refine (follows_readPrimary inner fewer plain before frames).bind fun base _ before => ?_
  have shorter := base.shorter
  exact (follows_readAccesses inner (by omega) _ before frames).map fun _ => rfl

/-- The operators before an operand, and the operand. -/
theorem follows_readUnary {tokens : List Spanned} (fewer : tokens.length ≤ bound) (before : Nat)
    (frames : List Frame) :
    Follows finish before ⟨.operand, frames⟩ ⟨.nothing, frames⟩ (Ends 6) tokens
      (readUnary finish tokens) := by
  induction tokens generalizing before with
  | nil =>
    have plain : ∀ first ∈ ([] : List Spanned).head?, unaryOperator? first.token = none := by simp
    rw [readUnary_plain plain]
    exact follows_readPostfix inner fewer plain before frames
  | cons first others ih =>
    obtain ⟨token, offset⟩ := first
    cases found : unaryOperator? token with
    | none =>
      have plain : ∀ first ∈ (⟨token, offset⟩ :: others : List Spanned).head?,
          unaryOperator? first.token = none := by
        simpa using found
      rw [readUnary_plain plain]
      exact follows_readPostfix inner fewer plain before frames
    | some op =>
      rw [List.length_cons] at fewer
      rw [readUnary]
      simp only [found]
      have step : Place.step ⟨.operand, frames⟩ token = some ⟨.operand, frames⟩ := by
        rw [unaryOperator?_eq_some.mp found]
        cases op <;> rfl
      exact .cons step ((ih (by omega) offset).map fun _ => rfl)

/-- The operands of a depth and of all greater ones. -/
theorem follows_readLevel (above : Nat) {depth : Nat} (total : depth + above = 6) :
    ∀ tokens : List Spanned, tokens.length ≤ bound → ∀ before frames,
      Follows finish before ⟨.operand, frames⟩ ⟨.nothing, frames⟩ (Ends depth) tokens
        (readLevel finish depth tokens) := by
  induction above generalizing depth with
  | zero =>
    intro tokens fewer before frames
    cases total
    rw [readLevel_six]
    exact follows_readUnary inner fewer before frames
  | succ above ih =>
    intro tokens fewer before frames
    have operand := ih (show depth + 1 + above = 6 by omega)
    rw [readLevel, if_pos (by omega)]
    refine (operand tokens fewer before frames).bind fun left ends before => ?_
    have shorter := left.shorter
    exact (follows_readOperands operand (by omega) ends _ before frames).map fun _ => rfl

/-- A condition and, after a question mark, two choices. -/
theorem follows_readConditional_of_below {tokens : List Spanned} (fewer : tokens.length ≤ bound)
    (before : Nat) (frames : List Frame) :
    Follows finish before ⟨.operand, frames⟩ ⟨.nothing, frames⟩ Read tokens
      (readConditional finish tokens) := by
  rw [readConditional]
  refine (follows_readLevel inner 6 rfl tokens fewer before frames).bind ?_
  rintro ⟨test, middle, shorter⟩ ends before
  by_cases asked : Starts .question middle
  · obtain ⟨place, chosen, rfl⟩ := asked
    simp only [takeMark_self]
    have less : chosen.length < tokens.length := Nat.lt_of_succ_lt shorter
    refine .cons (show _ = some ⟨.operand, .choice :: frames⟩ from rfl) ?_
    refine (inner chosen (by omega) place _).bind fun yes read before => ?_
    have yesShorter := yes.shorter
    refine (follows_closer .choice read fun _ => rfl).bind fun colon _ before => ?_
    have colonShorter := colon.shorter
    exact (inner colon.rest (by omega) before frames).map fun _ => rfl
  · obtain ⟨error, failed⟩ := exists_error_of_takeMark finish asked
    simp only [failed]
    exact ⟨⟨ends, asked⟩, [], rfl, leads_nil⟩

end Readers

/-- **The reader of expressions** leads from the place before an expression to the place behind it,
or stops on the way. -/
theorem follows_readConditional (finish before : Nat) (frames : List Frame)
    (tokens : List Spanned) :
    Follows finish before ⟨.operand, frames⟩ ⟨.nothing, frames⟩ Read tokens
      (readConditional finish tokens) := by
  have follows : ∀ bound, FollowsBelow finish bound := by
    intro bound
    induction bound with
    | zero => exact fun tokens fewer => absurd fewer (Nat.not_lt_zero _)
    | succ bound ih =>
      intro tokens fewer before frames
      exact follows_readConditional_of_below ih (Nat.le_of_lt_succ fewer) before frames
  exact follows (tokens.length + 1) tokens (Nat.lt_succ_self _) before frames

/-! ### The parser -/

/-- What the parser accepts leads behind a whole expression. -/
theorem leads_of_ofTokens {finish : Nat} {tokens : List Spanned} {value : Expr}
    (parsed : ofTokens finish tokens = .ok value) : Leads .start tokens .final := by
  obtain ⟨taken, read, parsed⟩ := exists_of_bind_eq_ok parsed
  have follows := follows_readConditional finish 0 [] tokens
  rw [read] at follows
  obtain ⟨_, used, split, leads⟩ := follows
  have rest : taken.rest = [] := by
    cases rests : taken.rest with
    | nil => rfl
    | cons first others =>
      simp only [rests] at parsed
      cases parsed
  rw [split, rest, List.append_nil]
  exact leads

/-- **Where the parser fails, it stops** on the way. -/
theorem stops_of_ofTokens {finish : Nat} {tokens : List Spanned} {error : SyntaxError}
    (failed : ofTokens finish tokens = .error error) : Stops finish 0 .start tokens error := by
  have follows := follows_readConditional finish 0 [] tokens
  rw [ofTokens] at failed
  cases read : readConditional finish tokens with
  | error cause =>
    rw [read] at follows failed
    cases failed
    exact follows
  | ok taken =>
    rw [read] at follows failed
    obtain ⟨whole, used, split, leads⟩ := follows
    cases rests : taken.rest with
    | nil =>
      simp only [bind, Except.bind, rests] at failed
      cases failed
    | cons first others =>
      simp only [bind, Except.bind, rests] at failed
      cases failed
      rw [split, rests]
      rw [rests] at whole
      exact .token leads (step_nothing whole rfl (by simp) fun _ => rfl) rfl

end DataBind.Expr
