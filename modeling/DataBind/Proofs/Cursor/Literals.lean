/-
**The cursor in an object literal.**

The separators of a literal are found by an iteration over its characters with their offsets, in
which a quote passes over everything up to the same quote. At these offsets the literal is sliced
into entries, and an entry into its key and its value.

* `closes`: the iteration inside of quotes comes to an end wherever it starts;
* `runsTo_positionsFrom`: from every place the search comes to an end, with the separators that
  count;
* `positionsFrom_of_splitFrom`: these are at the ends of the parts;
* `topLevelParts_eq`: the slices between them are the parts of a split;
* `unquoted_eq`, `withoutBraces_eq`: the slices inside of quotes and braces;
* `objectLiteral_eq`: an object literal is read with slices that can be taken.
-/

import DataBind.Binding.ObjectLiteral
import DataBind.Proofs.Binding.Scanning
import DataBind.Proofs.Cursor.Slice

namespace DataBind.Cursor

open DataBind.Text DataBind.Binding Scanned

/-! ### Positions -/

section Positions

variable {ε : Type}

/-- Passes over one character, if there is one. -/
def passOne : Nat × List Char → Nat × List Char
  | (offset, []) => (offset, [])
  | (offset, c :: rest) => (offset + c.utf8Size, rest)

/-- One iteration of the loop over the characters inside of quotes, with the offset of the next one
and the characters from there on. It ends behind the closing quote, or with nothing at the end of the
text. -/
def quoteStep (quote : Char) : Nat × List Char →
    Scanned ε ((Nat × List Char) ⊕ Option (Nat × List Char))
  | (_, []) => pure (.inr none)
  | (offset, c :: rest) =>
    if c = '\\' then pure (.inl (passOne (offset + c.utf8Size, rest)))
    else if c = quote then pure (.inr (some (offset + c.utf8Size, rest)))
    else pure (.inl (offset + c.utf8Size, rest))

/-- How far separators have been searched: the offset of the next character, the characters from
there on, the separators found, and the brackets to be closed, innermost first. -/
structure Search where
  offset : Nat
  rest : List Char
  positions : List Nat
  closers : List (Char × Nat)

/-- One iteration of the search for separators outside of brackets and quotes. -/
noncomputable def positionsStep (separator : Char) :
    Search → Scanned LiteralError (Search ⊕ List Nat)
  | ⟨_, [], positions, []⟩ => pure (.inr positions)
  | ⟨_, [], _, (closer, offset) :: _⟩ => fault (.unbalanced (openerOf closer) offset)
  | ⟨offset, c :: rest, positions, closers⟩ =>
    let next := offset + c.utf8Size
    if isQuote c then do
      match ← loop (quoteStep c) (next, rest) with
      | some (next, rest) => return .inl ⟨next, rest, positions, closers⟩
      | none => fault (.unterminatedString offset)
    else
      match closerOf? c with
      | some closer => pure (.inl ⟨next, rest, positions, (closer, offset) :: closers⟩)
      | none =>
        if isCloser c then
          match closers with
          | (expected, _) :: outer =>
            if expected = c then pure (.inl ⟨next, rest, positions, outer⟩)
            else fault (.unbalanced c offset)
          | [] => fault (.unbalanced c offset)
        else if c = separator ∧ closers = [] then
          pure (.inl ⟨next, rest, positions ++ [offset], closers⟩)
        else pure (.inl ⟨next, rest, positions, closers⟩)

end Positions

section Agreement

variable {ε : Type} {separator c : Char} {state next : Scan} {rest : List Char}

/-- What a search finds behind a first character. -/
theorem positionsFrom_cons (stepped : state.step c = .ok next) :
    positionsFrom separator state (c :: rest) =
      (positionsFrom separator next rest).map fun others =>
        if state.separates separator c then state.offset :: others else others := by
  rw [positionsFrom, stepped]
  simp only [bind, Except.bind]
  cases positionsFrom separator next rest with
  | error cause => rfl
  | ok others => rfl

theorem positionsFrom_error {cause : LiteralError} (failed : state.step c = .error cause) :
    positionsFrom separator state (c :: rest) = .error cause := by
  rw [positionsFrom, failed]
  rfl

/-- Inside of quotes no separator counts. -/
theorem positionsFrom_inside (separator : Char) (rest : List Char) {mode : Mode} {offset : Nat}
    {closers : List (Char × Nat)} (quoted : mode ≠ .plain)
    (stepped : (⟨offset, mode, closers⟩ : Scan).step c = .ok next) :
    positionsFrom separator ⟨offset, mode, closers⟩ (c :: rest) =
      positionsFrom separator next rest := by
  have quiet : (⟨offset, mode, closers⟩ : Scan).separates separator c = false := by
    simp [Scan.separates, quoted]
  rw [positionsFrom_cons stepped, quiet]
  cases positionsFrom separator next rest with
  | error cause => rfl
  | ok others => rfl

/-- How the loop over the characters inside of quotes comes to an end: behind the closing quote, where
the search goes on, or at the end of the text, where the string is unterminated. -/
inductive Closes (ε : Type) (separator quote : Char) (start : Nat) (closers : List (Char × Nat))
    (offset : Nat) (rest : List Char) : Prop
  | closed {place : Nat} {after : List Char} :
      RunsTo (ε := ε) Prod.fst (quoteStep quote) (offset, rest) (.ok (some (place, after))) →
      after.length < rest.length → offset < place →
      positionsFrom separator ⟨offset, .inside quote start, closers⟩ rest =
        positionsFrom separator ⟨place, .plain, closers⟩ after →
      Closes ε separator quote start closers offset rest
  | unended :
      RunsTo (ε := ε) Prod.fst (quoteStep quote) (offset, rest) (.ok none) →
      positionsFrom separator ⟨offset, .inside quote start, closers⟩ rest =
        .error (.unterminatedString start) →
      Closes ε separator quote start closers offset rest

/-- An iteration that goes on leads to the same end. -/
theorem Closes.of_step {quote : Char} {start offset place : Nat} {closers : List (Char × Nat)}
    {after : List Char} (ends : Closes ε separator quote start closers place after)
    (stepped : quoteStep quote (offset, rest) = (pure (.inl (place, after)) : Scanned ε _))
    (forward : offset < place) (shorter : after.length < rest.length)
    (same : positionsFrom separator ⟨offset, .inside quote start, closers⟩ rest =
      positionsFrom separator ⟨place, .inside quote start, closers⟩ after) :
    Closes ε separator quote start closers offset rest := by
  cases ends with
  | closed runs less further found =>
    exact .closed (.goesOn stepped forward runs) (less.trans shorter) (forward.trans further)
      (same.trans found)
  | unended runs found => exact .unended (.goesOn stepped forward runs) (same.trans found)

/-- **The loop over the characters inside of quotes comes to an end** wherever it starts. -/
theorem closes (ε : Type) (separator quote : Char) (start : Nat) (closers : List (Char × Nat))
    (offset : Nat) (rest : List Char) : Closes ε separator quote start closers offset rest := by
  have inside : Mode.inside quote start ≠ .plain := nofun
  have escaped : Mode.escaped quote start ≠ .plain := nofun
  induction size : rest.length using Nat.strongRecOn generalizing offset rest with
  | _ size ih =>
    subst size
    cases rest with
    | nil => exact .unended (.ends rfl) rfl
    | cons c rest =>
      have positive := c.utf8Size_pos
      by_cases slash : c = '\\'
      · have stepped : (⟨offset, .inside quote start, closers⟩ : Scan).step c =
            .ok ⟨offset + c.utf8Size, .escaped quote start, closers⟩ := by
          simp only [Scan.step, if_pos slash]
        have first := positionsFrom_inside separator rest inside stepped
        cases rest with
        | nil =>
          refine .unended (.goesOn (if_pos slash) ?_ (.ends rfl)) first
          simp only [passOne]
          omega
        | cons d rest =>
          have skipped : (⟨offset + c.utf8Size, .escaped quote start, closers⟩ : Scan).step d =
              .ok ⟨offset + c.utf8Size + d.utf8Size, .inside quote start, closers⟩ := rfl
          have second := positionsFrom_inside separator rest escaped skipped
          refine (ih rest.length ?_ (offset + c.utf8Size + d.utf8Size) rest rfl).of_step
            (if_pos slash) ?_ ?_ (first.trans second)
          · simp only [List.length_cons]
            omega
          · omega
          · simp only [List.length_cons]
            omega
      · by_cases closing : c = quote
        · have stepped : (⟨offset, .inside quote start, closers⟩ : Scan).step c =
              .ok ⟨offset + c.utf8Size, .plain, closers⟩ := by
            simp only [Scan.step, if_neg slash, if_pos closing]
          refine .closed (.ends ?_) (Nat.lt_succ_self _) (Nat.lt_add_of_pos_right positive)
            (positionsFrom_inside separator rest inside stepped)
          rw [quoteStep, if_neg slash, if_pos closing]
        · have stepped : (⟨offset, .inside quote start, closers⟩ : Scan).step c =
              .ok ⟨offset + c.utf8Size, .inside quote start, closers⟩ := by
            simp only [Scan.step, if_neg slash, if_neg closing]
          refine (ih rest.length (Nat.lt_succ_self _) (offset + c.utf8Size) rest rfl).of_step ?_
            (Nat.lt_add_of_pos_right positive) (Nat.lt_succ_self _)
            (positionsFrom_inside separator rest inside stepped)
          rw [quoteStep, if_neg slash, if_neg closing]

/-- Outside of quotes an iteration takes the step of a scan. -/
theorem positionsStep_plain (separator : Char) (offset : Nat) (rest : List Char)
    (positions : List Nat) (closers : List (Char × Nat)) (bare : isQuote c = false) :
    positionsStep separator ⟨offset, c :: rest, positions, closers⟩ =
      match (⟨offset, .plain, closers⟩ : Scan).step c with
      | .ok next =>
        pure (.inl ⟨next.offset, rest,
          if (⟨offset, .plain, closers⟩ : Scan).separates separator c then positions ++ [offset]
          else positions, next.closers⟩)
      | .error cause => fault cause := by
  simp only [positionsStep, Scan.step, Scan.separates, bare, Bool.false_eq_true, if_false]
  cases opens : closerOf? c with
  | some closer => simp
  | none =>
    cases ends : isCloser c with
    | true =>
      cases closers with
      | nil => simp
      | cons closer outer =>
        by_cases expected : closer.1 = c
        · simp [expected]
        · simp [expected]
    | false =>
      by_cases apart : c = separator ∧ closers = []
      · simp [apart]
      · simp [apart]

/-- A quote opens a string. -/
theorem positionsFrom_quote {offset : Nat} {closers : List (Char × Nat)}
    (quoted : isQuote c = true) :
    positionsFrom separator ⟨offset, .plain, closers⟩ (c :: rest) =
      positionsFrom separator ⟨offset + c.utf8Size, .inside c offset, closers⟩ rest := by
  have stepped : (⟨offset, .plain, closers⟩ : Scan).step c =
      .ok ⟨offset + c.utf8Size, .inside c offset, closers⟩ := by
    simp only [Scan.step, quoted, if_true]
  have quiet : (⟨offset, .plain, closers⟩ : Scan).separates separator c = false := by
    simp [Scan.separates, quoted]
  rw [positionsFrom_cons stepped, quiet]
  cases positionsFrom separator ⟨offset + c.utf8Size, .inside c offset, closers⟩ rest with
  | error cause => rfl
  | ok others => rfl

theorem positionsStep_quote {offset : Nat} {positions : List Nat} {closers : List (Char × Nat)}
    (quoted : isQuote c = true) {result : Option (Nat × List Char)}
    (runs : RunsTo (ε := LiteralError) Prod.fst (quoteStep c) (offset + c.utf8Size, rest)
      (.ok result)) :
    positionsStep separator ⟨offset, c :: rest, positions, closers⟩ =
      match result with
      | some (place, after) => pure (.inl ⟨place, after, positions, closers⟩)
      | none => fault (.unterminatedString offset) := by
  simp only [positionsStep, quoted, if_true, runs.loop_eq, ofExcept_ok, pure_bind]
  cases result with
  | none => rfl
  | some found => rfl

theorem plain_of_step {offset : Nat} {closers : List (Char × Nat)} (bare : isQuote c = false)
    (stepped : (⟨offset, .plain, closers⟩ : Scan).step c = .ok next) : next.mode = .plain := by
  simp only [Scan.step, bare, Bool.false_eq_true, if_false] at stepped
  repeat' split at stepped
  all_goals first
    | (cases stepped; rfl)
    | cases stepped

/-- **From every place the search for separators comes to an end**, with those found before and those
of the rest. -/
theorem runsTo_positionsFrom (separator : Char) (offset : Nat) (rest : List Char)
    (positions : List Nat) (closers : List (Char × Nat)) :
    RunsTo Search.offset (positionsStep separator) ⟨offset, rest, positions, closers⟩
      ((positionsFrom separator ⟨offset, .plain, closers⟩ rest).map (positions ++ ·)) := by
  induction size : rest.length using Nat.strongRecOn generalizing offset rest positions closers with
  | _ size ih =>
    subst size
    cases rest with
    | nil =>
      cases closers with
      | nil =>
        refine .ends ?_
        exact congrArg (fun found => pure (Sum.inr found)) (List.append_nil positions).symm
      | cons closer outer => exact .fails rfl
    | cons c rest =>
      have positive := c.utf8Size_pos
      cases quoted : isQuote c with
      | true =>
        rw [positionsFrom_quote quoted]
        cases closes LiteralError separator c offset closers (offset + c.utf8Size) rest with
        | closed runs shorter further same =>
          rw [same]
          exact .goesOn (positionsStep_quote quoted runs) (by simp only; omega)
            (ih _ (Nat.lt_succ_of_lt shorter) _ _ _ _ rfl)
        | unended runs same =>
          rw [same]
          exact .fails (positionsStep_quote quoted runs)
      | false =>
        have iteration := positionsStep_plain separator offset rest positions closers quoted
        cases stepped : (⟨offset, .plain, closers⟩ : Scan).step c with
        | error cause =>
          rw [stepped] at iteration
          rw [positionsFrom_error stepped]
          exact .fails iteration
        | ok next =>
          rw [stepped] at iteration
          rw [positionsFrom_cons stepped]
          have place := Scan.step_offset stepped
          have mode := plain_of_step quoted stepped
          obtain ⟨further, _, outer⟩ := next
          subst mode
          have runs := ih _ (Nat.lt_succ_self _) further rest
            (if (⟨offset, .plain, closers⟩ : Scan).separates separator c then positions ++ [offset]
              else positions) outer rfl
          have same : ∀ found : Except LiteralError (List Nat),
              (found.map fun others =>
                if (⟨offset, .plain, closers⟩ : Scan).separates separator c then offset :: others
                else others).map (positions ++ ·) =
              found.map ((if (⟨offset, .plain, closers⟩ : Scan).separates separator c then
                positions ++ [offset] else positions) ++ ·) := by
            intro found
            cases found with
            | error cause => rfl
            | ok others =>
              cases (⟨offset, .plain, closers⟩ : Scan).separates separator c with
              | true => simp [Except.map]
              | false => rfl
          rw [same]
          exact .goesOn iteration (by simp only at place ⊢; omega) runs

/-- **The search for separators comes to an end**, with their offsets or an error. -/
theorem runsTo_topLevelPositions (separator : Char) (text : List Char) :
    RunsTo Search.offset (positionsStep separator) ⟨0, text, [], []⟩
      (topLevelPositions separator text) := by
  have runs := runsTo_positionsFrom separator 0 text [] []
  have same : (positionsFrom separator ⟨0, .plain, []⟩ text).map ([] ++ ·) =
      topLevelPositions separator text := congrFun Except.map_id _
  rwa [same] at runs

end Agreement

/-! ### Parts -/

section Parts

variable {ε : Type}

/-- The slices of a text between the offsets of separators of a width, from an offset on. -/
def partsBetween (text : List Char) (width : Nat) : Nat → List Nat → Scanned ε (List (List Char))
  | start, [] => do
    let last ← sliceFrom text start
    return [last]
  | start, place :: places => do
    let part ← slice text start place
    let parts ← partsBetween text width (place + width) places
    return part :: parts

/-- The slices of a text between the separators outside of brackets and quotes. -/
noncomputable def topLevelParts (separator : Char) (text : List Char) :
    Scanned LiteralError (List (List Char)) := do
  let positions ← loop (positionsStep separator) ⟨0, text, [], []⟩
  partsBetween text separator.utf8Size 0 positions

/-- The offsets of the separators in front of parts, from the offset of the first of them on. -/
def separatorOffsets (width : Nat) : Nat → List (List Char) → List Nat
  | _, [] => []
  | offset, part :: others =>
    offset :: separatorOffsets width (offset + width + byteLength part) others

variable {separator : Char} {text part : List Char} {others : List (List Char)}

/-- **The separators that count are at the ends of the parts** of a split. -/
theorem positionsFrom_of_splitFrom {state : Scan} {rest : List Char}
    (split : splitFrom separator state rest = .ok (part :: others)) :
    positionsFrom separator state rest =
      .ok (separatorOffsets separator.utf8Size (state.offset + byteLength part) others) := by
  induction rest generalizing state part others with
  | nil =>
    obtain ⟨_, done, same⟩ := exists_of_map_eq_ok split
    cases same
    rw [positionsFrom, done]
    rfl
  | cons c rest ih =>
    obtain ⟨next, first, later, stepped, inner, same⟩ := exists_of_splitFrom_cons split
    rw [positionsFrom_cons stepped, ih inner, Scan.step_offset stepped]
    cases apart : state.separates separator c with
    | true =>
      obtain ⟨rfl, _⟩ := Scan.exists_of_separates apart stepped
      rw [apart] at same
      cases same
      rfl
    | false =>
      rw [apart] at same
      cases same
      rw [byteLength_cons, Nat.add_assoc]
      rfl

/-- A text that cannot be split has the error of the split. -/
theorem topLevelPositions_error {cause : LiteralError}
    (failed : splitTopLevel separator text = .error cause) :
    topLevelPositions separator text = .error cause := by
  have same := (map_positionsFrom separator .start text).trans
    (map_splitFrom separator .start text).symm
  rw [splitTopLevel] at failed
  rw [failed] at same
  rw [topLevelPositions]
  cases found : positionsFrom separator .start text with
  | error other =>
    rw [found] at same
    exact congrArg Except.error (Except.error.inj same)
  | ok positions =>
    rw [found] at same
    cases same

/-- Slices between the ends of parts are the parts. -/
theorem partsBetween_eq (suffix : [separator].intercalate (part :: others) <:+ text) :
    partsBetween text separator.utf8Size
        (offsetOf text ([separator].intercalate (part :: others)))
        (separatorOffsets separator.utf8Size
          (offsetOf text ([separator].intercalate (part :: others)) + byteLength part) others) =
      (pure (part :: others) : Scanned ε _) := by
  induction others generalizing part with
  | nil =>
    rw [List.intercalate_singleton] at suffix ⊢
    rw [separatorOffsets, partsBetween, sliceFrom_offsetOf suffix, pure_bind]
  | cons other others ih =>
    rw [List.intercalate_cons_cons, List.append_assoc] at suffix ⊢
    have behind := (List.suffix_append part _).trans suffix
    have further := (List.suffix_append [separator] _).trans behind
    have place : offsetOf text ([separator] ++ [separator].intercalate (other :: others)) +
        separator.utf8Size = offsetOf text ([separator].intercalate (other :: others)) :=
      offsetOf_add [separator] behind
    rw [offsetOf_add part suffix, separatorOffsets, partsBetween, slice_offsetOf suffix, pure_bind,
      place, ih further, pure_bind]

/-- **The slices between the separators that count are the parts of a split.** -/
theorem topLevelParts_eq (separator : Char) (text : List Char) :
    topLevelParts separator text = ofExcept (splitTopLevel separator text) := by
  rw [topLevelParts, (runsTo_topLevelPositions separator text).loop_eq]
  cases split : splitTopLevel separator text with
  | error cause =>
    rw [topLevelPositions_error split]
    rfl
  | ok parts =>
    obtain ⟨part, others, rfl⟩ := List.exists_cons_of_ne_nil (splitFrom_ne_nil split)
    have whole := intercalate_splitFrom split
    have suffix : [separator].intercalate (part :: others) <:+ text := whole ▸ List.suffix_rfl
    have slices := partsBetween_eq (ε := LiteralError) suffix
    rw [whole, offsetOf_self] at slices
    rw [topLevelPositions, positionsFrom_of_splitFrom split, ofExcept_ok, pure_bind]
    exact slices

end Parts

/-! ### Quotes and braces -/

section Enclosed

variable {ε δ : Type}

/-- The slice inside of the quotes around a text, if there are any. -/
def unquoted (text : List Char) : Scanned ε (Option (List Char)) :=
  let whole := trim text
  match whole with
  | [] => pure none
  | quote :: _ =>
    if (quote = '"' ∨ quote = '\x27') ∧ 2 ≤ byteLength whole ∧ whole.getLast? = some quote then do
      let inner ← slice whole 1 (byteLength whole - 1)
      return some inner
    else pure none

/-- Whether a scan finds no error in its text. -/
def succeeds {α : Type} (scan : Scanned ε α) : Scanned δ Bool :=
  match scan.run with
  | none => none
  | some (.error .badSlice) => .badSlice
  | some (.error (.fault _)) => pure false
  | some (.ok _) => pure true

/-- The slice inside of the braces around the whole of a text, or the text without them. -/
noncomputable def withoutBraces (text : List Char) : Scanned LiteralError (List Char) :=
  if text.head? = some '\x7b' ∧ text.getLast? = some '\x7d' then do
    let inner ← slice text 1 (byteLength text - 1)
    if ← succeeds (loop (positionsStep ',') ⟨0, inner, [], []⟩) then return inner
    else return text
  else pure text

variable {rest : List Char} {opener closer : Char}

/-- The slice between a first and a last character of one byte. -/
theorem slice_enclosed (starts : opener.utf8Size = 1) (ends : closer.utf8Size = 1)
    (last : rest.getLast? = some closer) :
    slice (opener :: rest) 1 (byteLength (opener :: rest) - 1) =
      (pure rest.dropLast : Scanned ε _) := by
  obtain ⟨inner, rfl⟩ := List.getLast?_eq_some_iff.mp last
  have width : byteLength (opener :: (inner ++ [closer])) - 1 = byteLength inner + 1 := by
    rw [byteLength_cons, byteLength_append, byteLength_cons, byteLength_nil, starts, ends]
    omega
  rw [width, List.dropLast_concat, slice_cons starts]

/-- **The inside of quotes** is a slice that can be taken. -/
theorem unquoted_eq (text : List Char) : unquoted text = (pure (unquote? text) : Scanned ε _) := by
  rw [unquoted, unquote?]
  cases trim text with
  | nil => rfl
  | cons quote rest =>
    by_cases quoted : quote = '"' ∨ quote = '\x27'
    · have narrow : quote.utf8Size = 1 := by
        rcases quoted with rfl | rfl <;> rfl
      -- a quote alone is no text in quotes: it is one byte long
      have same : 2 ≤ byteLength (quote :: rest) ∧ (quote :: rest).getLast? = some quote ↔
          rest.getLast? = some quote := by
        cases rest with
        | nil => simp [narrow]
        | cons c others =>
          have := c.utf8Size_pos
          rw [List.getLast?_cons_cons, byteLength_cons, byteLength_cons]
          exact and_iff_right (by omega)
      simp only [same]
      by_cases last : rest.getLast? = some quote
      · simp only [if_pos (And.intro quoted last), slice_enclosed narrow narrow last, pure_bind]
      · simp only [if_neg fun both => last (And.right both)]
    · simp only [if_neg fun both => quoted (And.left both)]

theorem succeeds_ofExcept {α : Type} (result : Except ε α) :
    succeeds (ofExcept result) = (pure result.isOk : Scanned δ Bool) := by
  cases result with
  | error cause => rfl
  | ok value => rfl

/-- **The inside of braces** is a slice that can be taken. -/
theorem withoutBraces_eq (text : List Char) : withoutBraces text = pure (stripBraces text) := by
  rw [withoutBraces]
  cases text with
  | nil => rfl
  | cons c rest =>
    by_cases opens : c = '\x7b'
    · subst opens
      -- an opening brace alone is no text in braces
      have same : ('\x7b' :: rest).head? = some '\x7b' ∧ ('\x7b' :: rest).getLast? = some '\x7d' ↔
          rest.getLast? = some '\x7d' := by
        cases rest with
        | nil => simp
        | cons d others => simp [List.getLast?_cons_cons]
      simp only [same, stripBraces]
      by_cases last : rest.getLast? = some '\x7d'
      · have inner : slice ('\x7b' :: rest) 1 (byteLength ('\x7b' :: rest) - 1) =
            (pure rest.dropLast : Scanned LiteralError _) := slice_enclosed rfl rfl last
        simp only [if_pos last, inner, pure_bind,
          (runsTo_topLevelPositions ',' rest.dropLast).loop_eq, succeeds_ofExcept]
        cases topLevelPositions ',' rest.dropLast with
        | error cause => rfl
        | ok positions => rfl
      · simp only [if_neg last]
    · have apart : ¬ ((c :: rest).head? = some '\x7b' ∧ (c :: rest).getLast? = some '\x7d') :=
        fun both => opens (Option.some.inj both.1)
      rw [if_neg apart, stripBraces]
      exact fun _ same => opens (List.cons.inj same).1

end Enclosed

/-! ### Entries -/

/-- Reads the key and the value of an entry. -/
noncomputable def entryParts (entry : List Char) : Scanned LiteralError (String × String) := do
  match ← loop (positionsStep ':') ⟨0, entry, [], []⟩ with
  | [] => fault (.missingColon (String.ofList entry))
  | colon :: _ =>
    let first ← sliceTo entry colon
    let bare := trim first
    let key := (← unquoted bare).getD bare
    if key.isEmpty then fault (.emptyKey (String.ofList entry))
    else
      let value ← sliceFrom entry (colon + 1)
      return (String.ofList key, String.ofList (trim value))

/-- Reads the entries of a list, of which those without text are passed over. -/
noncomputable def entriesParts : List (List Char) → Scanned LiteralError (List (String × String))
  | [] => pure []
  | part :: rest =>
    let entry := trim part
    if entry.isEmpty then entriesParts rest
    else do
      let pair ← entryParts entry
      let others ← entriesParts rest
      return pair :: others

/-- Reads an object literal. -/
noncomputable def objectLiteral (text : String) : Scanned LiteralError (List (String × String)) := do
  let body ← withoutBraces (trim text.toList)
  let parts ← topLevelParts ',' body
  entriesParts parts

theorem entryParts_eq (entry : List Char) : entryParts entry = ofExcept (parseEntry entry) := by
  rw [entryParts, parseEntry, (runsTo_topLevelPositions ':' entry).loop_eq]
  cases split : splitTopLevel ':' entry with
  | error cause =>
    rw [topLevelPositions_error split]
    rfl
  | ok parts =>
    obtain ⟨first, others, rfl⟩ := List.exists_cons_of_ne_nil (splitFrom_ne_nil split)
    have whole := intercalate_splitFrom split
    rw [topLevelPositions, positionsFrom_of_splitFrom split]
    cases others with
    | nil => rfl
    | cons second more =>
      rw [List.intercalate_cons_cons, List.append_assoc] at whole
      generalize [':'].intercalate (second :: more) = rest at whole
      subst whole
      have key : sliceTo (first ++ ([':'] ++ rest)) (byteLength first) =
          (pure first : Scanned LiteralError _) := sliceTo_append first _
      have value : sliceFrom (first ++ ([':'] ++ rest)) (byteLength first + 1) =
          (pure rest : Scanned LiteralError _) := by
        have parts := sliceFrom_append (ε := LiteralError) (first ++ [':']) rest
        rwa [List.append_assoc, byteLength_append] at parts
      have dropped : (first ++ ([':'] ++ rest)).drop (first.length + 1) = rest := by
        rw [← List.append_assoc]
        exact List.drop_left' (by simp)
      have start : Scan.start.offset + byteLength first = byteLength first := Nat.zero_add _
      simp only [separatorOffsets, start, ofExcept_ok, pure_bind, key, value, unquoted_eq]
      show _ = ofExcept
        (if ((unquote? (trim first)).getD (trim first)).isEmpty = true then _ else _)
      split
      · rfl
      · rw [dropped]
        rfl

theorem entriesParts_eq (parts : List (List Char)) :
    entriesParts parts = ofExcept (parseEntries parts) := by
  induction parts with
  | nil => rfl
  | cons part rest ih =>
    rw [entriesParts, parseEntries]
    by_cases blank : (trim part).isEmpty = true
    · simp only [if_pos blank, ih]
    · simp only [if_neg blank, entryParts_eq, ih]
      cases parseEntry (trim part) with
      | error cause => rfl
      | ok pair =>
        cases parseEntries rest with
        | error cause => rfl
        | ok others => rfl

/-- **An object literal is read with slices that can be taken.** -/
theorem objectLiteral_eq (text : String) :
    objectLiteral text = ofExcept (parseObjectLiteral text) := by
  rw [objectLiteral, parseObjectLiteral, withoutBraces_eq, pure_bind, topLevelParts_eq]
  cases splitTopLevel ',' (stripBraces (trim text.toList)) with
  | error cause => rfl
  | ok parts => exact entriesParts_eq parts

end DataBind.Cursor
