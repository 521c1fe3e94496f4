/-
**Scans, and what a split gives.**

A scan runs through a text step by step. Whether it fails, and how, does not depend on the separator;
a split at any separator fails just when the scan does, and else takes the text apart into parts that
are scanned without a separator that counts.

* `Scan.run`, `Scan.check`: the state behind a text, and whether a scan fails;
* `map_positionsFrom`, `map_splitFrom`: scanning for positions and splitting fail as the scan does;
* `Scan.Alike`: scans that differ in their offsets only; `splitFrom_of_alike`: offsets have no
  effect on a split;
* `splitFrom_of_positions`, `positions_of_splitFrom`: a text is one part just if no separator
  counts;
* `intercalate_splitFrom`, `closed_of_mem_split`: a split is undone by joining its parts, and no
  separator counts in a part.
-/

import DataBind.Binding.TopLevel
import DataBind.Text.Taken

namespace DataBind.Binding

open DataBind.Text

/-! ### Runs of a scan -/

namespace Scan

/-- The state behind a text. -/
def run (state : Scan) (text : List Char) : Except LiteralError Scan :=
  text.foldlM step state

/-- Whether a scan of a text fails. -/
def check (state : Scan) (text : List Char) : Except LiteralError Unit := do
  let last ← state.run text
  last.finish

theorem run_cons (state : Scan) (c : Char) (rest : List Char) :
    state.run (c :: rest) = state.step c >>= fun next => next.run rest := rfl

theorem run_append (state : Scan) (first second : List Char) :
    state.run (first ++ second) = state.run first >>= fun next => next.run second :=
  List.foldlM_append

theorem check_cons (state : Scan) (c : Char) (rest : List Char) :
    state.check (c :: rest) = state.step c >>= fun next => next.check rest := by
  rw [check, run_cons]
  cases state.step c <;> rfl

end Scan

/-- **Scanning for positions fails as the scan does.** -/
theorem map_positionsFrom (separator : Char) (state : Scan) (text : List Char) :
    (positionsFrom separator state text).map (fun _ => ()) = state.check text := by
  induction text generalizing state with
  | nil =>
    show (state.finish.map fun _ => []).map _ = state.finish
    cases state.finish <;> rfl
  | cons c rest ih =>
    rw [positionsFrom, Scan.check_cons]
    cases state.step c with
    | error cause => rfl
    | ok next =>
      simp only [bind, Except.bind, ← ih next]
      cases positionsFrom separator next rest <;> rfl

/-- **Splitting fails as the scan does.** -/
theorem map_splitFrom (separator : Char) (state : Scan) (text : List Char) :
    (splitFrom separator state text).map (fun _ => ()) = state.check text := by
  induction text generalizing state with
  | nil =>
    show (state.finish.map fun _ => [[]]).map _ = state.finish
    cases state.finish <;> rfl
  | cons c rest ih =>
    rw [splitFrom, Scan.check_cons]
    cases state.step c with
    | error cause => rfl
    | ok next =>
      simp only [bind, Except.bind, ← ih next]
      cases splitFrom separator next rest <;> rfl

theorem check_of_positionsFrom {separator : Char} {state : Scan} {text : List Char}
    {positions : List Nat} (found : positionsFrom separator state text = .ok positions) :
    state.check text = .ok () := by
  rw [← map_positionsFrom separator, found]
  rfl

theorem check_of_splitFrom {separator : Char} {state : Scan} {text : List Char}
    {parts : List (List Char)} (split : splitFrom separator state text = .ok parts) :
    state.check text = .ok () := by
  rw [← map_splitFrom separator, split]
  rfl

theorem exists_positionsFrom {state : Scan} {text : List Char} (sound : state.check text = .ok ())
    (separator : Char) : ∃ positions, positionsFrom separator state text = .ok positions := by
  rw [← map_positionsFrom separator] at sound
  obtain ⟨positions, found, _⟩ := exists_of_map_eq_ok sound
  exact ⟨positions, found⟩

theorem exists_splitFrom {state : Scan} {text : List Char} (sound : state.check text = .ok ())
    (separator : Char) : ∃ part rest, splitFrom separator state text = .ok (part :: rest) := by
  rw [← map_splitFrom separator] at sound
  obtain ⟨parts, split, _⟩ := exists_of_map_eq_ok sound
  obtain ⟨part, rest, rfl⟩ := List.exists_cons_of_ne_nil (splitFrom_ne_nil split)
  exact ⟨part, rest, split⟩

/-- A scan that does not fail ends outside of brackets and quotes. -/
theorem Scan.exists_of_finish {state : Scan} (done : state.finish = .ok ()) :
    ∃ offset, state = ⟨offset, .plain, []⟩ := by
  obtain ⟨offset, mode, closers⟩ := state
  cases mode with
  | inside => cases done
  | escaped => cases done
  | plain =>
    cases closers with
    | nil => exact ⟨offset, rfl⟩
    | cons => cases done

/-! ### Scans from another offset -/

/-- The mode of a scan without the offset of the quote. -/
def Mode.quote? : Mode → Option (Char × Bool)
  | .plain => none
  | .inside quote _ => some (quote, false)
  | .escaped quote _ => some (quote, true)

/-- Scans that differ in their offsets only. -/
structure Scan.Alike (first second : Scan) : Prop where
  mode : first.mode.quote? = second.mode.quote?
  closers : first.closers.map Prod.fst = second.closers.map Prod.fst

namespace Scan

variable {first second next : Scan}

/-- The start of a scan is like any other place outside of brackets and quotes. -/
theorem alike_start (offset : Nat) : Alike .start ⟨offset, .plain, []⟩ :=
  ⟨rfl, rfl⟩

/-- The first of the brackets to be closed is the same. -/
theorem Alike.closers_cons (alike : first.Alike second) {closer : Char} {offset : Nat}
    {outer : List (Char × Nat)} (opened : first.closers = (closer, offset) :: outer) :
    ∃ place others, second.closers = (closer, place) :: others ∧
      outer.map Prod.fst = others.map Prod.fst := by
  have same := alike.closers
  rw [opened, List.map_cons] at same
  obtain ⟨⟨_, place⟩, others, found, rfl, rest⟩ := List.map_eq_cons_iff.mp same.symm
  exact ⟨place, others, found, rest.symm⟩

/-- Offsets have no effect on a step outside of quotes: it opens a quote or a bracket, closes the
innermost bracket, or passes over a character. -/
theorem Alike.step_plain {offset place : Nat} {closers others : List (Char × Nat)}
    (alike : Alike ⟨offset, .plain, closers⟩ ⟨place, .plain, others⟩) {c : Char}
    (stepped : Scan.step ⟨offset, .plain, closers⟩ c = .ok next) :
    ∃ other, Scan.step ⟨place, .plain, others⟩ c = .ok other ∧ next.Alike other := by
  have brackets : closers.map Prod.fst = others.map Prod.fst := alike.closers
  unfold Scan.step at stepped ⊢
  simp only at stepped ⊢
  by_cases quoted : isQuote c = true
  · rw [if_pos quoted] at stepped ⊢
    cases stepped
    exact ⟨_, rfl, rfl, brackets⟩
  · rw [if_neg quoted] at stepped ⊢
    cases opens : closerOf? c with
    | some closer =>
      rw [opens] at stepped
      cases stepped
      exact ⟨_, rfl, rfl, congrArg (closer :: ·) brackets⟩
    | none =>
      rw [opens] at stepped
      simp only at stepped ⊢
      by_cases closes : isCloser c = true
      · rw [if_pos closes] at stepped ⊢
        cases closers with
        | nil => cases stepped
        | cons entry outer =>
          obtain ⟨expected, start⟩ := entry
          obtain ⟨position, rest, rfl, inner⟩ := alike.closers_cons rfl
          simp only at stepped ⊢
          by_cases fits : expected = c
          · rw [if_pos fits] at stepped ⊢
            cases stepped
            exact ⟨_, rfl, rfl, inner⟩
          · rw [if_neg fits] at stepped
            cases stepped
      · rw [if_neg closes] at stepped ⊢
        cases stepped
        exact ⟨_, rfl, rfl, brackets⟩

/-- **Offsets have no effect on a step.** -/
theorem Alike.step (alike : first.Alike second) {c : Char} (stepped : first.step c = .ok next) :
    ∃ other, second.step c = .ok other ∧ next.Alike other := by
  obtain ⟨offset, mode, closers⟩ := first
  obtain ⟨place, other, others⟩ := second
  have modes : mode.quote? = other.quote? := alike.mode
  have brackets : closers.map Prod.fst = others.map Prod.fst := alike.closers
  cases mode with
  | escaped quote start =>
    cases other with
    | escaped mark position =>
      cases modes
      cases stepped
      exact ⟨_, rfl, rfl, brackets⟩
    | inside _ _ => cases modes
    | plain => cases modes
  | inside quote start =>
    cases other with
    | inside mark position =>
      cases modes
      unfold Scan.step at stepped ⊢
      simp only at stepped ⊢
      by_cases slash : c = '\\'
      · rw [if_pos slash] at stepped ⊢
        cases stepped
        exact ⟨_, rfl, rfl, brackets⟩
      · rw [if_neg slash] at stepped ⊢
        by_cases ends : c = quote
        · rw [if_pos ends] at stepped ⊢
          cases stepped
          exact ⟨_, rfl, rfl, brackets⟩
        · rw [if_neg ends] at stepped ⊢
          cases stepped
          exact ⟨_, rfl, rfl, brackets⟩
    | escaped _ _ => cases modes
    | plain => cases modes
  | plain =>
    cases other with
    | inside _ _ => cases modes
    | escaped _ _ => cases modes
    | plain => exact alike.step_plain stepped

/-- Offsets have no effect on what separates. -/
theorem Alike.separates (alike : first.Alike second) (separator c : Char) :
    first.separates separator c = second.separates separator c := by
  have plain : (first.mode == .plain) = (second.mode == .plain) := by
    have same := alike.mode
    cases one : first.mode <;> cases other : second.mode <;> rw [one, other] at same <;>
      first | rfl | cases same
  have level : first.closers.isEmpty = second.closers.isEmpty := by
    have same := congrArg List.isEmpty alike.closers
    rw [List.isEmpty_map, List.isEmpty_map] at same
    exact same
  rw [Scan.separates, Scan.separates, plain, level]

theorem Alike.finish (alike : first.Alike second) (done : first.finish = .ok ()) :
    second.finish = .ok () := by
  obtain ⟨place, rfl⟩ := exists_of_finish done
  obtain ⟨_, other, others⟩ := second
  have modes : none = other.quote? := alike.mode
  cases List.map_eq_nil_iff.mp (show others.map Prod.fst = [] from alike.closers.symm)
  cases other with
  | plain => rfl
  | inside _ _ => cases modes
  | escaped _ _ => cases modes

end Scan

/-- A character that separates starts a part; any other joins the first part. -/
theorem splitFrom_cons {separator c : Char} {state next : Scan} {rest part : List Char}
    {others : List (List Char)} (stepped : state.step c = .ok next)
    (split : splitFrom separator next rest = .ok (part :: others)) :
    splitFrom separator state (c :: rest) =
      .ok (if state.separates separator c then [] :: part :: others
        else (c :: part) :: others) := by
  rw [splitFrom, stepped]
  simp only [bind, Except.bind, split, consFirst]
  rfl

/-- **Offsets have no effect on a split.** -/
theorem splitFrom_of_alike {separator : Char} {first second : Scan} {text : List Char}
    {parts : List (List Char)} (alike : first.Alike second)
    (split : splitFrom separator first text = .ok parts) :
    splitFrom separator second text = .ok parts := by
  induction text generalizing first second parts with
  | nil =>
    obtain ⟨_, done, same⟩ := exists_of_map_eq_ok split
    rw [splitFrom, alike.finish done, ← same]
    rfl
  | cons c rest ih =>
    obtain ⟨next, stepped, split⟩ := exists_of_bind_eq_ok split
    obtain ⟨found, later, split⟩ := exists_of_bind_eq_ok split
    obtain ⟨other, also, alikeNext⟩ := alike.step stepped
    rw [splitFrom, also, ← alike.separates]
    simp only [bind, Except.bind, ih alikeNext later]
    exact split

/-- A text without separators that count goes to the first part, whatever follows it. -/
theorem splitFrom_append {separator : Char} {state : Scan} {text rest part : List Char}
    {others : List (List Char)} (found : positionsFrom separator state text = .ok [])
    (split : ∀ offset, splitFrom separator ⟨offset, .plain, []⟩ rest = .ok (part :: others)) :
    splitFrom separator state (text ++ rest) = .ok ((text ++ part) :: others) := by
  induction text generalizing state with
  | nil =>
    obtain ⟨_, done, _⟩ := exists_of_map_eq_ok found
    obtain ⟨offset, rfl⟩ := Scan.exists_of_finish done
    exact split offset
  | cons c text ih =>
    obtain ⟨next, stepped, found⟩ := exists_of_bind_eq_ok found
    obtain ⟨positions, later, found⟩ := exists_of_bind_eq_ok found
    have kept : state.separates separator c = false ∧ positions = [] := by
      cases apart : state.separates separator c with
      | true => rw [apart] at found; cases found
      | false => rw [apart] at found; exact ⟨rfl, Except.ok.inj found⟩
    rw [List.cons_append, splitFrom_cons stepped (ih (kept.2 ▸ later)), kept.1]
    rfl

/-- **A text without separators that count is one part.** -/
theorem splitFrom_of_positions {separator : Char} {state : Scan} {text : List Char}
    (found : positionsFrom separator state text = .ok []) :
    splitFrom separator state text = .ok [text] := by
  have rest : ∀ offset, splitFrom separator ⟨offset, .plain, []⟩ [] = .ok [[]] := fun _ => rfl
  have whole := splitFrom_append found rest
  rw [List.append_nil] at whole
  exact whole

/-- What a split finds behind a first character. -/
theorem exists_of_splitFrom_cons {separator c : Char} {state : Scan} {rest : List Char}
    {parts : List (List Char)} (split : splitFrom separator state (c :: rest) = .ok parts) :
    ∃ next part others, state.step c = .ok next ∧
      splitFrom separator next rest = .ok (part :: others) ∧
      parts = if state.separates separator c then [] :: part :: others
        else (c :: part) :: others := by
  obtain ⟨next, stepped, split⟩ := exists_of_bind_eq_ok split
  obtain ⟨found, later, split⟩ := exists_of_bind_eq_ok split
  obtain ⟨part, others, rfl⟩ := List.exists_cons_of_ne_nil (splitFrom_ne_nil later)
  exact ⟨next, part, others, stepped, later, (Except.ok.inj split).symm⟩

/-- In a text that is one part no separator counts. -/
theorem positions_of_splitFrom {separator : Char} {state : Scan} {text : List Char}
    (split : splitFrom separator state text = .ok [text]) :
    positionsFrom separator state text = .ok [] := by
  induction text generalizing state with
  | nil =>
    obtain ⟨_, done, _⟩ := exists_of_map_eq_ok split
    rw [positionsFrom, done]
    rfl
  | cons c rest ih =>
    obtain ⟨next, part, others, stepped, later, same⟩ := exists_of_splitFrom_cons split
    cases apart : state.separates separator c with
    | true =>
      rw [apart] at same
      cases same
    | false =>
      rw [apart] at same
      cases same
      rw [positionsFrom, stepped]
      simp only [bind, Except.bind, ih later, apart]
      rfl

/-- Offsets have no effect on whether a separator counts. -/
theorem closed_of_alike {separator : Char} {first second : Scan} {text : List Char}
    (alike : first.Alike second) (found : positionsFrom separator first text = .ok []) :
    positionsFrom separator second text = .ok [] :=
  positions_of_splitFrom (splitFrom_of_alike alike (splitFrom_of_positions found))

/-- Where a separator counts, no bracket and no quote is open. -/
theorem Scan.exists_of_separates {separator c : Char} {state next : Scan}
    (apart : state.separates separator c = true) (stepped : state.step c = .ok next) :
    c = separator ∧ ∃ offset place, state = ⟨offset, .plain, []⟩ ∧ next = ⟨place, .plain, []⟩ := by
  obtain ⟨offset, mode, closers⟩ := state
  simp only [Scan.separates, Bool.and_eq_true, beq_iff_eq, List.isEmpty_iff, Bool.not_eq_true',
    Option.isNone_iff_eq_none] at apart
  obtain ⟨⟨⟨⟨⟨same, rfl⟩, rfl⟩, plain⟩, opens⟩, closes⟩ := apart
  simp only [Scan.step, plain, opens, closes, Bool.false_eq_true, if_false] at stepped
  cases stepped
  exact ⟨same, offset, _, rfl, rfl⟩

/-! ### What a split gives -/

/-- **A split is undone by joining its parts** with the separator. -/
theorem intercalate_splitFrom {separator : Char} {state : Scan} {text : List Char}
    {parts : List (List Char)} (split : splitFrom separator state text = .ok parts) :
    [separator].intercalate parts = text := by
  induction text generalizing state parts with
  | nil =>
    obtain ⟨_, _, rfl⟩ := exists_of_map_eq_ok split
    rfl
  | cons c rest ih =>
    obtain ⟨next, part, others, stepped, later, rfl⟩ := exists_of_splitFrom_cons split
    have joined := ih later
    cases apart : state.separates separator c with
    | true =>
      obtain ⟨rfl, _⟩ := Scan.exists_of_separates apart stepped
      rw [if_pos rfl, List.intercalate_cons_cons, joined]
      rfl
    | false =>
      rw [if_neg Bool.false_ne_true]
      cases others with
      | nil =>
        rw [List.intercalate_singleton] at joined ⊢
        rw [joined]
      | cons other others =>
        rw [List.intercalate_cons_cons] at joined ⊢
        rw [← joined]
        rfl

/-- **No separator counts in a part**: in the first one from where the split starts, in the others
from the start. -/
theorem closed_of_splitFrom {separator : Char} {state : Scan} {text part : List Char}
    {others : List (List Char)} (split : splitFrom separator state text = .ok (part :: others)) :
    positionsFrom separator state part = .ok [] ∧
      ∀ other ∈ others, topLevelPositions separator other = .ok [] := by
  induction text generalizing state part others with
  | nil =>
    obtain ⟨_, done, same⟩ := exists_of_map_eq_ok split
    cases same
    rw [positionsFrom, done]
    exact ⟨rfl, List.forall_mem_nil _⟩
  | cons c rest ih =>
    obtain ⟨next, first, later, stepped, inner, same⟩ := exists_of_splitFrom_cons split
    obtain ⟨own, closed⟩ := ih inner
    cases apart : state.separates separator c with
    | true =>
      obtain ⟨_, offset, place, rfl, rfl⟩ := Scan.exists_of_separates apart stepped
      rw [apart] at same
      cases same
      have start : Scan.Alike ⟨place, .plain, []⟩ .start := ⟨rfl, rfl⟩
      exact ⟨rfl, List.forall_mem_cons.mpr ⟨closed_of_alike start own, closed⟩⟩
    | false =>
      rw [apart] at same
      cases same
      rw [positionsFrom, stepped]
      simp only [bind, Except.bind, own, apart]
      exact ⟨rfl, closed⟩

theorem closed_of_mem_split {separator : Char} {text : List Char} {parts : List (List Char)}
    (split : splitTopLevel separator text = .ok parts) :
    ∀ part ∈ parts, topLevelPositions separator part = .ok [] := by
  obtain ⟨part, others, rfl⟩ := List.exists_cons_of_ne_nil (splitFrom_ne_nil split)
  obtain ⟨own, later⟩ := closed_of_splitFrom split
  exact List.forall_mem_cons.mpr ⟨own, later⟩

/-- Where a separator does not occur, none counts. -/
theorem closed_of_not_mem {separator : Char} {state : Scan} {text : List Char}
    (absent : separator ∉ text) (sound : state.check text = .ok ()) :
    positionsFrom separator state text = .ok [] := by
  induction text generalizing state with
  | nil =>
    have done : state.finish = .ok () := sound
    rw [positionsFrom, done]
    rfl
  | cons c rest ih =>
    rw [List.mem_cons, not_or] at absent
    rw [Scan.check_cons] at sound
    obtain ⟨next, stepped, sound⟩ := exists_of_bind_eq_ok sound
    have apart : state.separates separator c = false := by
      simp [Scan.separates, Ne.symm absent.1]
    rw [positionsFrom, stepped]
    simp only [bind, Except.bind, ih absent.2 sound, apart]
    rfl

end DataBind.Binding
