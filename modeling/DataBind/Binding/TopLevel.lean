/-
**Separators outside of brackets and quotes.**

A text is scanned character by character. Inside quotes everything up to the same quote is passed
over, a backslash taking the next character with it; brackets have to match. A separator counts
where no quote and no bracket is open.

* `splitFrom_ne_nil`: a split gives at least one part;
* `Scan.step_offset`: every step moves the offset by the width of the character.
-/

import DataBind.Text.Blank
import DataBind.Text.Measure
import DataBind.Text.Quoted

namespace DataBind.Binding

/-- Why a text is no object literal. -/
inductive LiteralError where
  | unbalanced (bracket : Char) (offset : Nat)
  | unterminatedString (offset : Nat)
  | missingColon (entry : String)
  | emptyKey (entry : String)
  deriving DecidableEq, Repr

/-- The wording of an error. -/
def LiteralError.message : LiteralError → String
  | .unbalanced bracket offset =>
    "unbalanced " ++ Text.quotedCharacter bracket ++ " at offset " ++ toString offset
  | .unterminatedString offset => "unterminated string starting at offset " ++ toString offset
  | .missingColon entry => "missing ':' in " ++ Text.quoted entry
  | .emptyKey entry => "empty key in " ++ Text.quoted entry

/-- The characters that open and close strings. -/
def isQuote (c : Char) : Bool :=
  c == '"' || c == '\x27' || c == '\x60'

/-- The bracket that closes an opening one. -/
def closerOf? : Char → Option Char
  | '(' => some ')'
  | '[' => some ']'
  | '\x7b' => some '\x7d'
  | _ => none

/-- The bracket that opens what a closing one closes. -/
def openerOf : Char → Char
  | ')' => '('
  | ']' => '['
  | _ => '\x7b'

/-- Whether a bracket closes. -/
def isCloser (c : Char) : Bool :=
  c == ')' || c == ']' || c == '\x7d'

/-- Whether a scan is inside quotes. -/
inductive Mode where
  | plain
  /-- After an opening quote at an offset. -/
  | inside (quote : Char) (start : Nat)
  /-- After a backslash inside quotes. -/
  | escaped (quote : Char) (start : Nat)
  deriving DecidableEq, Repr

/-- The state of a scan: the offset of the next character, and the brackets to be closed,
innermost first, with the offsets of those that opened them. -/
structure Scan where
  offset : Nat
  mode : Mode
  closers : List (Char × Nat)
  deriving DecidableEq, Repr

namespace Scan

/-- The start of a scan. -/
def start : Scan :=
  ⟨0, .plain, []⟩

/-- Takes in one character. -/
def step (state : Scan) (c : Char) : Except LiteralError Scan :=
  let next := state.offset + c.utf8Size
  match state.mode with
  | .escaped quote start => .ok { state with offset := next, mode := .inside quote start }
  | .inside quote start =>
    if c = '\\' then .ok { state with offset := next, mode := .escaped quote start }
    else if c = quote then .ok { state with offset := next, mode := .plain }
    else .ok { state with offset := next }
  | .plain =>
    if isQuote c then .ok { state with offset := next, mode := .inside c state.offset }
    else
      match closerOf? c with
      | some closer =>
        .ok { state with offset := next, closers := (closer, state.offset) :: state.closers }
      | none =>
        if isCloser c then
          match state.closers with
          | (expected, _) :: outer =>
            if expected = c then .ok { state with offset := next, closers := outer }
            else .error (.unbalanced c state.offset)
          | [] => .error (.unbalanced c state.offset)
        else .ok { state with offset := next }

/-- The error in a scan that ends in a state, if any. -/
def finish (state : Scan) : Except LiteralError Unit :=
  match state.mode, state.closers with
  | .inside _ start, _ => .error (.unterminatedString start)
  | .escaped _ start, _ => .error (.unterminatedString start)
  | .plain, (closer, offset) :: _ => .error (.unbalanced (openerOf closer) offset)
  | .plain, [] => .ok ()

/-- Whether a character in a state is a separator that counts. -/
def separates (separator : Char) (state : Scan) (c : Char) : Bool :=
  c == separator && state.mode == .plain && state.closers.isEmpty && !isQuote c &&
    (closerOf? c).isNone && !isCloser c

/-- Every step moves the offset by the width of the character. -/
theorem step_offset {state next : Scan} {c : Char} (stepped : state.step c = .ok next) :
    next.offset = state.offset + c.utf8Size := by
  unfold step at stepped
  simp only at stepped
  repeat' split at stepped
  all_goals first
    | (cases stepped; rfl)
    | cases stepped

end Scan

/-- The offsets of the separators that count, from a state on. -/
def positionsFrom (separator : Char) (state : Scan) :
    List Char → Except LiteralError (List Nat)
  | [] => state.finish.map fun _ => []
  | c :: rest => do
    let next ← state.step c
    let others ← positionsFrom separator next rest
    return if state.separates separator c then state.offset :: others else others

/-- The offsets in bytes of the separators outside of brackets and quotes. -/
def topLevelPositions (separator : Char) (text : List Char) : Except LiteralError (List Nat) :=
  positionsFrom separator .start text

/-- Puts a character in front of the first part. -/
def consFirst (c : Char) : List (List Char) → List (List Char)
  | [] => [[c]]
  | part :: others => (c :: part) :: others

/-- The parts between the separators that count, from a state on. -/
def splitFrom (separator : Char) (state : Scan) :
    List Char → Except LiteralError (List (List Char))
  | [] => state.finish.map fun _ => [[]]
  | c :: rest => do
    let next ← state.step c
    let parts ← splitFrom separator next rest
    return if state.separates separator c then [] :: parts else consFirst c parts

/-- The parts of a text between the separators outside of brackets and quotes. -/
def splitTopLevel (separator : Char) (text : List Char) :
    Except LiteralError (List (List Char)) :=
  splitFrom separator .start text

/-- A split gives at least one part. -/
theorem splitFrom_ne_nil {separator : Char} {state : Scan} {text : List Char}
    {parts : List (List Char)} (split : splitFrom separator state text = .ok parts) :
    parts ≠ [] := by
  cases text with
  | nil =>
    unfold splitFrom at split
    cases ended : state.finish with
    | error error => simp [ended, Except.map] at split
    | ok _ =>
      simp only [ended, Except.map, Except.ok.injEq] at split
      simp [← split]
  | cons c rest =>
    unfold splitFrom at split
    cases stepped : state.step c with
    | error error => simp [stepped, bind, Except.bind] at split
    | ok next =>
      cases found : splitFrom separator next rest with
      | error error => simp [stepped, found, bind, Except.bind] at split
      | ok others =>
        simp only [stepped, found, bind, Except.bind, pure, Except.pure, Except.ok.injEq] at split
        subst split
        split
        · simp
        · cases others <;> simp [consFirst]

end DataBind.Binding
