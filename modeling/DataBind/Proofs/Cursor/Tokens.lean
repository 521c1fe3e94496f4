/-
**The cursor in the source of an expression.**

Tokens are read in one loop: white space is passed over, and one token is read from its first
character on. Numbers and words are slices up to the cursor; a string is read character by character,
with the offset of each.

* `passMantissa_eq`, `passExponent_eq`, `number_eq`: a number under the cursor;
* `runsTo_readString`: the loop over the characters of a string comes to an end;
* `token_eq`: a token of any kind is read as its rest is;
* `runsTo_tokensFrom`: from every place the loop over the tokens comes to an end, with the cursor
  strictly further on after every token;
* `runsTo_tokenize`: so it does from the start, with the tokens of the source or its error.
-/

import DataBind.Proofs.Cursor.Slice
import DataBind.Proofs.Expr.Spelling

namespace DataBind.Cursor

open DataBind.Text DataBind.Expr Scanned

/-! ### Numbers -/

section Numbers

variable {ε : Type} (text : List Char)

/-- Passes over digits. -/
def passDigits (cursor : Nat) : Scanned ε Nat := do
  let (_, cursor) ← takeSpan Char.isDigit text cursor
  return cursor

/-- Passes over the part of a number up to its exponent. -/
def passMantissa (cursor : Nat) : Scanned ε Nat := do
  let cursor ← passDigits text cursor
  let rest ← sliceFrom text cursor
  match rest with
  | '.' :: _ => passDigits text (cursor + 1)
  | _ => return cursor

/-- Passes over what has a width and the digits after it, if there are any. -/
def passSigned (rest : List Char) (width cursor : Nat) : Scanned ε Nat := do
  let digits ← sliceFrom rest width
  if digits.head?.any Char.isDigit then passDigits text (cursor + width) else return cursor

/-- Passes over an exponent, if its sign is followed by digits. -/
def passExponent (cursor : Nat) : Scanned ε Nat := do
  let rest ← sliceFrom text cursor
  match rest with
  | [] => return cursor
  | mark :: _ =>
    if mark == 'e' || mark == 'E' then
      match ← sliceFrom rest 1 with
      | '+' :: _ => passSigned text rest 2 cursor
      | '-' :: _ => passSigned text rest 2 cursor
      | _ => passSigned text rest 1 cursor
    else return cursor

/-- Reads a number from its start on. -/
def number (start : Nat) : Scanned SyntaxError (Token × Nat) := do
  let cursor ← passMantissa text start
  let cursor ← passExponent text cursor
  let lexeme ← slice text start cursor
  match Number.readNumber? lexeme with
  | some amount => return (.number amount, cursor)
  | none => fault ⟨.invalidNumber (String.ofList lexeme), start⟩

end Numbers

section NumberAgreement

variable {ε : Type} {text rest : List Char}

theorem passDigits_eq (suffix : rest <:+ text) :
    passDigits text (offsetOf text rest) =
      (pure (offsetOf text (Number.spanDigits rest).2) : Scanned ε Nat) := by
  simp only [passDigits, takeSpan_offsetOf _ suffix, pure_bind, Number.spanDigits]

theorem spanDigits_suffix (rest : List Char) : (Number.spanDigits rest).2 <:+ rest :=
  List.dropWhile_suffix _

/-- Behind the digits and a point, a mantissa ends with the digits after the point. -/
theorem spanMantissa_point {after : List Char}
    (point : (Number.spanDigits rest).2 = '.' :: after) :
    (spanMantissa rest).2 = (Number.spanDigits after).2 := by
  simp only [spanMantissa, point]

/-- Without a point, a mantissa ends with its digits. -/
theorem spanMantissa_whole (whole : ∀ after, (Number.spanDigits rest).2 = '.' :: after → False) :
    (spanMantissa rest).2 = (Number.spanDigits rest).2 := by
  -- `whole` leaves only the second case of the match
  simp only [spanMantissa]

theorem passMantissa_eq (suffix : rest <:+ text) :
    passMantissa text (offsetOf text rest) =
      (pure (offsetOf text (spanMantissa rest).2) : Scanned ε Nat) := by
  have behind := (spanDigits_suffix rest).trans suffix
  rw [passMantissa, passDigits_eq suffix, pure_bind, sliceFrom_offsetOf behind, pure_bind]
  split
  · rename_i after point
    rw [point] at behind ⊢
    have first : offsetOf text ('.' :: after) + 1 = offsetOf text after := offsetOf_add_cons behind
    rw [first, passDigits_eq ((List.suffix_cons '.' after).trans behind),
      spanMantissa_point point]
  · rename_i whole
    rw [spanMantissa_whole whole]

theorem isEmpty_spanDigits (rest : List Char) :
    (Number.spanDigits rest).1.isEmpty = !rest.head?.any Char.isDigit := by
  cases rest with
  | nil => rfl
  | cons c others =>
    rw [Number.spanDigits, List.takeWhile_cons]
    cases digit : c.isDigit <;> simp [digit]

theorem passSigned_eq (lead : List Char) {unsigned : List Char}
    (suffix : lead ++ unsigned <:+ text) :
    passSigned text (lead ++ unsigned) (byteLength lead) (offsetOf text (lead ++ unsigned)) =
      (pure (offsetOf text (if (Number.spanDigits unsigned).1.isEmpty then ([], lead ++ unsigned)
        else (lead ++ (Number.spanDigits unsigned).1, (Number.spanDigits unsigned).2)).2) :
        Scanned ε Nat) := by
  have behind : unsigned <:+ text := (List.suffix_append lead unsigned).trans suffix
  rw [passSigned, sliceFrom_append, pure_bind, offsetOf_add lead suffix, passDigits_eq behind,
    isEmpty_spanDigits]
  cases unsigned.head?.any Char.isDigit with
  | false => rfl
  | true => rfl

theorem passExponent_eq (suffix : rest <:+ text) :
    passExponent text (offsetOf text rest) =
      (pure (offsetOf text (spanExponent rest).2) : Scanned ε Nat) := by
  rw [passExponent, sliceFrom_offsetOf suffix, pure_bind]
  cases rest with
  | nil => rfl
  | cons mark after =>
    by_cases letter : (mark == 'e' || mark == 'E') = true
    · have narrow : mark.utf8Size = 1 := by
        simp only [Bool.or_eq_true, beq_iff_eq] at letter
        rcases letter with rfl | rfl <;> rfl
      have unsigned : byteLength [mark] = 1 := narrow
      have signed : ∀ sign : Char, sign.utf8Size = 1 → byteLength [mark, sign] = 2 := by
        intro sign width
        rw [byteLength_cons, byteLength_cons, narrow, width, byteLength_nil]
      simp only [if_pos letter, sliceFrom_cons narrow, pure_bind]
      split
      · have parts := passSigned_eq (ε := ε) [mark, '+'] suffix
        rw [signed '+' rfl] at parts
        simp only [spanExponent, if_pos letter]
        exact parts
      · have parts := passSigned_eq (ε := ε) [mark, '-'] suffix
        rw [signed '-' rfl] at parts
        simp only [spanExponent, if_pos letter]
        exact parts
      · rename_i plus minus
        have parts := passSigned_eq (ε := ε) [mark] suffix
        rw [unsigned] at parts
        simp only [spanExponent, if_pos letter]
        exact parts
    · simp only [spanExponent, if_neg letter]

/-- **A number under the cursor** is the one that its rest starts with. -/
theorem number_eq (suffix : rest <:+ text) :
    number text (offsetOf text rest) =
      match Number.readNumber? (spanNumber rest).1 with
      | some amount => pure (.number amount, offsetOf text (spanNumber rest).2)
      | none => fault ⟨.invalidNumber (String.ofList (spanNumber rest).1), offsetOf text rest⟩ := by
  have mantissa : (spanMantissa rest).2 <:+ text :=
    List.IsSuffix.trans ⟨_, spanMantissa_append rest⟩ suffix
  have parts := spanNumber_append rest
  have lexeme := slice_offsetOf (ε := SyntaxError) (parts.symm ▸ suffix)
  rw [parts] at lexeme
  rw [number, passMantissa_eq suffix, pure_bind, passExponent_eq mantissa, pure_bind]
  have behind : (spanExponent (spanMantissa rest).2).2 = (spanNumber rest).2 := rfl
  rw [behind, lexeme, pure_bind]

end NumberAgreement

/-! ### Strings -/

/-- One iteration of the loop over the characters of a string, with the offset of the next one, the
characters from there on, and what has been read. -/
def stringStep (quote : Char) (start : Nat) : Nat × List Char × List Char →
    Scanned SyntaxError ((Nat × List Char × List Char) ⊕ (List Char × Nat))
  | (_, [], _) => fault ⟨.unterminatedString, start⟩
  | (offset, c :: rest, read) =>
    if c = quote then pure (.inr (read, offset + 1))
    else if c = '\\' then
      match readEscape rest with
      | .error cause => fault ⟨cause, start⟩
      | .ok (point, after) =>
        pure (.inl (offset + 1 + (byteLength rest - byteLength after), after, read ++ [point]))
    else pure (.inl (offset + c.utf8Size, rest, read ++ [c]))

/-- Reads a string from its opening quote on. -/
noncomputable def string (text : List Char) (start : Nat) (quote : Char) :
    Scanned SyntaxError (Token × Nat) := do
  let rest ← sliceFrom text (start + 1)
  let (read, length) ← loop (stringStep quote start) (0, rest, [])
  return (.string (String.ofList read), start + 1 + length)

section Strings

variable {text : List Char} {quote : Char} {start : Nat}

theorem readEscape_suffix {rest after : List Char} {point : Char}
    (read : readEscape rest = .ok (point, after)) : after <:+ rest := by
  unfold readEscape at read
  split at read
  · cases read
  · split at read
    · cases read
    · cases read
      exact (List.drop_suffix _ _).trans (List.suffix_cons _ _)
  · cases read
    exact List.suffix_cons _ _

/-- What has been read of a string, with the offset behind its closing quote. -/
def stringRead (text before : List Char) (start : Nat)
    (read : Except SyntaxFault (List Char × List Char)) : Except SyntaxError (List Char × Nat) :=
  match read with
  | .ok (inner, after) => .ok (before ++ inner, offsetOf text after)
  | .error cause => .error ⟨cause, start⟩

theorem stringRead_map (before : List Char) (c : Char)
    (result : Except SyntaxFault (List Char × List Char)) :
    stringRead text before start (result.map fun (inner, rest) => (c :: inner, rest)) =
      stringRead text (before ++ [c]) start result := by
  cases result with
  | error cause => rfl
  | ok read => simp [stringRead, Except.map]

/-- **The loop over the characters of a string comes to an end** wherever it starts. -/
theorem runsTo_readString (narrow : quote.utf8Size = 1) {rest : List Char} (suffix : rest <:+ text)
    (before : List Char) :
    RunsTo Prod.fst (stringStep quote start) (offsetOf text rest, rest, before)
      (stringRead text before start (readString quote rest)) := by
  fun_induction readString quote rest generalizing before with
  | case1 => exact .fails rfl
  | case2 rest =>
    refine .ends ?_
    rw [stringStep, if_pos rfl, List.append_nil, ← offsetOf_add_cons suffix, narrow]
  | case3 rest cause failed different =>
    refine .fails ?_
    rw [stringStep, if_neg different, if_pos rfl, failed]
  | case4 rest point after escape shorter different ih =>
    have inside := readEscape_suffix escape
    have behind : rest <:+ text := (List.suffix_cons _ rest).trans suffix
    have slash : offsetOf text ('\\' :: rest) + 1 = offsetOf text rest := offsetOf_add_cons suffix
    have further := offsetOf_trans behind inside
    rw [stringRead_map]
    refine .goesOn ?_ ?_ (ih (inside.trans behind) (before ++ [point]))
    · rw [stringStep, if_neg different, if_pos rfl, escape, slash, ← further]
      rfl
    · simp only
      omega
  | case5 c rest different slash ih =>
    have behind : rest <:+ text := (List.suffix_cons _ rest).trans suffix
    have further := offsetOf_add_cons suffix
    have positive := c.utf8Size_pos
    rw [stringRead_map]
    refine .goesOn ?_ ?_ (ih behind (before ++ [c]))
    · rw [stringStep, if_neg different, if_neg slash, further]
    · simp only
      omega

/-- **A string under the cursor** is the one that its rest starts with. -/
theorem string_eq {rest : List Char} (narrow : quote.utf8Size = 1)
    (suffix : quote :: rest <:+ text) :
    string text (offsetOf text (quote :: rest)) quote =
      match readString quote rest with
      | .ok (inner, after) => pure (.string (String.ofList inner), offsetOf text after)
      | .error cause => fault ⟨cause, offsetOf text (quote :: rest)⟩ := by
  have behind : rest <:+ text := (List.suffix_cons quote rest).trans suffix
  have first : offsetOf text (quote :: rest) + 1 = offsetOf text rest := by
    rw [← narrow]
    exact offsetOf_add_cons suffix
  have runs : RunsTo Prod.fst (stringStep quote (offsetOf text (quote :: rest)))
      (offsetOf rest rest, rest, [])
      (stringRead rest [] (offsetOf text (quote :: rest)) (readString quote rest)) :=
    runsTo_readString narrow (List.suffix_refl rest) []
  rw [offsetOf_self] at runs
  rw [string, first, sliceFrom_offsetOf behind, pure_bind, runs.loop_eq]
  cases read : readString quote rest with
  | error cause => rfl
  | ok parts =>
    obtain ⟨inner, after⟩ := parts
    obtain ⟨used, whole, _⟩ := exists_written read
    have inside : after <:+ rest := ⟨used ++ [quote], by rw [whole]; simp⟩
    have further := offsetOf_trans behind inside
    simp only [← further]
    rfl

end Strings

/-! ### Tokens -/

/-- Whether a number starts with a character, given the rest from there on. -/
def numberStarts {ε : Type} (c : Char) (rest : List Char) : Scanned ε Bool :=
  if c = '.' then do
    let after ← sliceFrom rest 1
    return after.head?.any Char.isDigit
  else return c.isDigit

/-- Reads the token that starts with a character, given the rest from there on. -/
noncomputable def token (text : List Char) (start : Nat) (c : Char) (rest : List Char) :
    Scanned SyntaxError (Token × Nat) := do
  if ← numberStarts c rest then number text start
  else if c = '"' ∨ c = '\x27' then string text start c
  else if startsWord c then
    let (_, cursor) ← takeSpan continuesWord text (start + c.utf8Size)
    let word ← slice text start cursor
    return (.word (String.ofList word), cursor)
  else
    match Punctuation.all.find? fun mark => mark.lexeme.toList <+: rest with
    | some mark => return (.symbol mark, start + byteLength mark.lexeme.toList)
    | none => fault ⟨.unexpectedCharacter c, start⟩

/-- One iteration of the loop over the tokens, with the cursor and the tokens read before. -/
noncomputable def tokenStep (text : List Char) : Nat × List Spanned →
    Scanned SyntaxError ((Nat × List Spanned) ⊕ List Spanned)
  | (cursor, tokens) => do
    let (_, start) ← takeSpan isBlank text cursor
    let rest ← sliceFrom text start
    match rest with
    | [] => return .inr tokens
    | c :: _ =>
      let (token, cursor) ← token text start c rest
      return .inl (cursor, tokens ++ [⟨token, start⟩])

section Tokens

variable {text rest : List Char} {c : Char}

/-- A search in the table of marks finds the mark that is read. -/
theorem readMark?_eq (text : List Char) :
    readMark? text =
      (Punctuation.all.find? fun mark => mark.lexeme.toList <+: text).map fun mark =>
        (mark, text.drop mark.lexeme.toList.length) := by
  rw [readMark?]
  induction Punctuation.all with
  | nil => rfl
  | cons mark others ih =>
    by_cases here : mark.lexeme.toList <+: text
    · rw [List.find?_cons_of_pos (by simpa using here)]
      obtain ⟨after, rfl⟩ := here
      rw [List.findSome?_cons, afterLead?_eq_some.mpr rfl, Option.map_some, Option.map_some,
        List.drop_left]
    · rw [List.find?_cons_of_neg (by simpa using here), ← ih, List.findSome?_cons]
      cases lead : afterLead? mark.lexeme.toList text with
      | none => rfl
      | some after => exact absurd ⟨after, (afterLead?_eq_some.mp lead).symm⟩ here

theorem numberStarts_eq {ε : Type} (c : Char) (rest : List Char) :
    numberStarts c (c :: rest) = (pure (startsNumber (c :: rest)) : Scanned ε Bool) := by
  rw [numberStarts]
  by_cases point : c = '.'
  · subst point
    rw [if_pos rfl, sliceFrom_cons rfl, pure_bind]
    cases rest with
    | nil => rfl
    | cons d others => rfl
  · rw [if_neg point, startsNumber]
    exact fun _ _ same => absurd same point

/-- The token at the start of a text, and what follows it. -/
def lexed (c : Char) (rest : List Char) : Except SyntaxFault (Token × List Char) :=
  (readToken c rest).map fun taken => (taken.value, taken.rest)

/-- What is read as a token, and why none is. -/
theorem lexed_eq (c : Char) (rest : List Char) :
    lexed c rest =
      if startsNumber (c :: rest) = true then
        match Number.readNumber? (spanNumber (c :: rest)).1 with
        | some amount => .ok (.number amount, (spanNumber (c :: rest)).2)
        | none => .error (.invalidNumber (String.ofList (spanNumber (c :: rest)).1))
      else if c = '"' ∨ c = '\x27' then
        (readString c rest).map fun (inner, after) => (.string (String.ofList inner), after)
      else if startsWord c = true then
        .ok (.word (String.ofList (c :: rest.takeWhile continuesWord)),
          rest.dropWhile continuesWord)
      else
        match readMark? (c :: rest) with
        | some (mark, after) => .ok (.symbol mark, after)
        | none => .error (.unexpectedCharacter c) := by
  unfold lexed readToken
  by_cases number : startsNumber (c :: rest) = true
  · rw [dif_pos number, if_pos number]
    simp only
    cases Number.readNumber? (spanNumber (c :: rest)).1 with
    | none => rfl
    | some amount => rfl
  · rw [dif_neg number, if_neg number]
    by_cases quoted : c = '"' ∨ c = '\x27'
    · rw [if_pos quoted, if_pos quoted]
      split
      · rename_i read
        simp only [read]
        rfl
      · rename_i read
        simp only [read]
        rfl
    · rw [if_neg quoted, if_neg quoted]
      by_cases word : startsWord c = true
      · rw [if_pos word, if_pos word]
        rfl
      · rw [if_neg word, if_neg word]
        split
        · rename_i read
          simp only [read]
          rfl
        · rename_i read
          simp only [read]
          rfl

/-- **A token under the cursor** is the one that its rest starts with. -/
theorem token_eq (suffix : c :: rest <:+ text) :
    token text (offsetOf text (c :: rest)) c (c :: rest) =
      match lexed c rest with
      | .ok (token, after) => pure (token, offsetOf text after)
      | .error cause => fault ⟨cause, offsetOf text (c :: rest)⟩ := by
  rw [token, numberStarts_eq, pure_bind, lexed_eq]
  by_cases number : startsNumber (c :: rest) = true
  · rw [if_pos number, if_pos number, number_eq suffix]
    cases Number.readNumber? (spanNumber (c :: rest)).1 with
    | none => rfl
    | some amount => rfl
  · rw [if_neg number, if_neg number]
    by_cases quoted : c = '"' ∨ c = '\x27'
    · have narrow : c.utf8Size = 1 := by
        rcases quoted with rfl | rfl <;> rfl
      rw [if_pos quoted, if_pos quoted, string_eq narrow suffix]
      cases readString c rest with
      | error cause => rfl
      | ok read => rfl
    · rw [if_neg quoted, if_neg quoted]
      by_cases word : startsWord c = true
      · have behind : rest <:+ text := (List.suffix_cons c rest).trans suffix
        have parts : c :: rest.takeWhile continuesWord ++ rest.dropWhile continuesWord =
            c :: rest := by
          rw [List.cons_append, List.takeWhile_append_dropWhile]
        have lexeme := slice_offsetOf (ε := SyntaxError) (parts.symm ▸ suffix)
        rw [parts] at lexeme
        simp only [if_pos word, offsetOf_add_cons suffix, takeSpan_offsetOf _ behind, pure_bind,
          lexeme]
      · rw [if_neg word, if_neg word, readMark?_eq]
        cases found : Punctuation.all.find? fun mark => mark.lexeme.toList <+: c :: rest with
        | none => rfl
        | some mark =>
          have here : mark.lexeme.toList <+: c :: rest := by simpa using List.find?_some found
          obtain ⟨after, whole⟩ := here
          rw [← whole] at suffix ⊢
          simp only [Option.map_some, List.drop_left, offsetOf_add _ suffix]

theorem tokenStep_nil (tokens : List Spanned) :
    tokenStep text (offsetOf text [], tokens) = pure (.inr tokens) := by
  have nothing : takeSpan isBlank text (offsetOf text []) =
      (pure ([], offsetOf text []) : Scanned SyntaxError _) :=
    takeSpan_offsetOf isBlank List.nil_suffix
  simp only [tokenStep, nothing, sliceFrom_offsetOf (List.nil_suffix : [] <:+ text), pure_bind]

/-- White space is passed over on the way to the next token. -/
theorem tokenStep_blank (suffix : c :: rest <:+ text) (blank : isBlank c = true)
    (tokens : List Spanned) :
    tokenStep text (offsetOf text (c :: rest), tokens) =
      tokenStep text (offsetOf text rest, tokens) := by
  have behind : rest <:+ text := (List.suffix_cons c rest).trans suffix
  simp only [tokenStep, takeSpan_offsetOf _ suffix, takeSpan_offsetOf _ behind, pure_bind,
    List.dropWhile_cons_of_pos blank]

/-- Where there is no white space, a token is read. -/
theorem tokenStep_cons (suffix : c :: rest <:+ text) (solid : ¬ isBlank c = true)
    (tokens : List Spanned) :
    tokenStep text (offsetOf text (c :: rest), tokens) =
      match lexed c rest with
      | .ok (token, after) =>
        pure (.inl (offsetOf text after, tokens ++ [⟨token, offsetOf text (c :: rest)⟩]))
      | .error cause => fault ⟨cause, offsetOf text (c :: rest)⟩ := by
  simp only [tokenStep, takeSpan_offsetOf _ suffix, pure_bind, List.dropWhile_cons_of_neg solid,
    sliceFrom_offsetOf suffix, token_eq suffix]
  cases lexed c rest with
  | error cause => rfl
  | ok read => rfl

/-- **From every place the loop over the tokens comes to an end**, with the tokens read before and
those of the rest. -/
theorem runsTo_tokensFrom (suffix : rest <:+ text) (tokens : List Spanned) :
    RunsTo Prod.fst (tokenStep text) (offsetOf text rest, tokens)
      ((tokensFrom (offsetOf text rest) rest).map (tokens ++ ·)) := by
  generalize place : offsetOf text rest = offset
  fun_induction tokensFrom offset rest generalizing tokens with
  | case1 offset =>
    subst place
    refine .ends ?_
    rw [tokenStep_nil]
    exact congrArg (fun tokens => pure (Sum.inr tokens)) (List.append_nil tokens).symm
  | case2 offset c rest blank ih =>
    subst place
    have behind : rest <:+ text := (List.suffix_cons c rest).trans suffix
    have further := offsetOf_add_cons suffix
    refine (ih behind tokens further.symm).of_step_eq ?_ (Nat.le_add_right _ _)
    rw [tokenStep_blank suffix blank, further]
  | case3 offset c rest solid cause failed =>
    subst place
    refine .fails ?_
    rw [tokenStep_cons suffix solid, lexed, failed]
    rfl
  | case4 offset c rest solid taken read width ih =>
    subst place
    obtain ⟨lexeme, whole, _⟩ := lexeme_of_readToken read
    have inside : taken.rest <:+ c :: rest := ⟨lexeme, whole.symm⟩
    have further : offsetOf text (c :: rest) + width = offsetOf text taken.rest :=
      offsetOf_trans suffix inside
    have stepped := tokenStep_cons suffix solid tokens
    rw [lexed, read] at stepped
    have runs := ih (inside.trans suffix) (tokens ++ [⟨taken.value, offsetOf text (c :: rest)⟩])
      further.symm
    rw [further] at runs ⊢
    have same : ∀ others : Except SyntaxError (List Spanned),
        (others.map (⟨taken.value, offsetOf text (c :: rest)⟩ :: ·)).map (tokens ++ ·) =
          others.map (tokens ++ [⟨taken.value, offsetOf text (c :: rest)⟩] ++ ·) := by
      intro others
      cases others with
      | error cause => rfl
      | ok found => simp [Except.map]
    rw [same]
    exact .goesOn stepped (offsetOf_lt suffix inside taken.shorter) runs

/-- **The loop over the tokens of a source comes to an end**, with its tokens or its error. -/
theorem runsTo_tokenize (source : String) :
    RunsTo Prod.fst (tokenStep source.toList) (0, []) (tokenize source) := by
  have runs := runsTo_tokensFrom (List.suffix_refl source.toList) []
  rw [offsetOf_self] at runs
  have same : (tokensFrom 0 source.toList).map ([] ++ ·) = tokenize source :=
    congrFun Except.map_id _
  rwa [same] at runs

end Tokens

end DataBind.Cursor
