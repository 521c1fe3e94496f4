/-
**Object literals, taken apart and put together.**

A scan that fails names the offset of the bracket or the quote it fails at. What the first scan of
an object literal, for commas, takes apart does not fail in the second, for colons. A list of keys
and values that is written as an object literal is read back, and braces around a text that is
accepted without them change nothing.

* `At`, `OpensString`: a character at an offset, and a quote that opens a string there;
* `Scan.Placed`: what a state of a scan says about the text before it, kept by every step;
* `points_of_check`: the error of a scan points to the bracket, or to the quote that opens a string
  that does not end;
* `check_trim`: a text that is scanned without an error is so when it is trimmed;
* `Key`, `SpellsKey`: a key that has no meaning for a scan, bare or in quotes;
* `parseObjectLiteral_literal`: entries are read back as they were written;
* `parseObjectLiteral_enclosed`: braces change nothing;
* `objectLiteral_scans`: all of this together.
-/

import DataBind.Proofs.Binding.Expressions
import Mathlib.Data.List.Induction

namespace DataBind.Binding

open DataBind.Text

/-! ### Where a scan fails -/

/-- A character of a text at an offset in bytes. -/
def At (text : List Char) (offset : Nat) (c : Char) : Prop :=
  ∃ before after, text = before ++ c :: after ∧ byteLength before = offset

/-- A quote of a text at an offset that opens a string: the scan of what stands before it ends
outside of strings. -/
def OpensString (text : List Char) (offset : Nat) (quote : Char) : Prop :=
  isQuote quote = true ∧ ∃ before after state, text = before ++ quote :: after ∧
    byteLength before = offset ∧ Scan.start.run before = .ok state ∧ state.mode = .plain

/-- What the error of a scan says about the text: there is the bracket, or a quote that opens a
string. -/
def LiteralError.Points (text : List Char) : LiteralError → Prop
  | .unbalanced bracket offset =>
    At text offset bracket ∧ (isCloser bracket = true ∨ (closerOf? bracket).isSome)
  | .unterminatedString offset => ∃ quote, OpensString text offset quote
  | .missingColon _ | .emptyKey _ => False

/-- The bracket that a closing one belongs to. -/
theorem openerOf_closerOf? {opener closer : Char} (pair : closerOf? opener = some closer) :
    openerOf closer = opener := by
  unfold closerOf? at pair
  split at pair <;> cases pair <;> decide

theorem At.append {text : List Char} {offset : Nat} {c : Char} (place : At text offset c)
    (more : List Char) : At (text ++ more) offset c := by
  obtain ⟨before, after, rfl, width⟩ := place
  exact ⟨before, after ++ more, by simp, width⟩

theorem OpensString.append {text : List Char} {offset : Nat} {quote : Char}
    (opens : OpensString text offset quote) (more : List Char) :
    OpensString (text ++ more) offset quote := by
  obtain ⟨mark, before, after, state, rfl, width, run, plain⟩ := opens
  exact ⟨mark, before, after ++ more, state, by simp, width, run, plain⟩

namespace Scan

/-- **What a state says about the text before it**: its length, the quote of an open string, and
the open brackets. -/
structure Placed (before : List Char) (state : Scan) : Prop where
  offset : state.offset = byteLength before
  string : ∀ quote start, state.mode = .inside quote start ∨ state.mode = .escaped quote start →
    OpensString before start quote
  bracket : ∀ entry ∈ state.closers, At before entry.2 (openerOf entry.1) ∧
    (closerOf? (openerOf entry.1)).isSome

theorem Placed.append {before : List Char} {state next : Scan} {c : Char}
    (placed : state.Placed before) (width : next.offset = state.offset + c.utf8Size)
    (string : ∀ quote start, next.mode = .inside quote start ∨ next.mode = .escaped quote start →
      OpensString (before ++ [c]) start quote)
    (bracket : ∀ entry ∈ next.closers, entry ∈ state.closers ∨
      (entry.2 = state.offset ∧ closerOf? c = some entry.1)) :
    next.Placed (before ++ [c]) where
  offset := by
    rw [width, placed.offset, byteLength_append]
    rfl
  string := string
  bracket := by
    intro entry member
    rcases bracket entry member with old | ⟨place, opens⟩
    · obtain ⟨found, opener⟩ := placed.bracket entry old
      exact ⟨found.append [c], opener⟩
    · rw [openerOf_closerOf? opens, opens, place]
      exact ⟨⟨before, [], rfl, placed.offset.symm⟩, rfl⟩

/-- **Every step keeps** what a state says about the text. -/
theorem Placed.step {before : List Char} {state next : Scan} {c : Char}
    (placed : state.Placed before) (run : Scan.start.run before = .ok state)
    (stepped : state.step c = .ok next) : next.Placed (before ++ [c]) := by
  have width := Scan.step_offset stepped
  obtain ⟨offset, mode, closers⟩ := state
  -- inside of a string the brackets stay, and the string is the one that was open
  have within : ∀ {quote : Char} {start : Nat},
      mode = .inside quote start ∨ mode = .escaped quote start → next.closers = closers →
      (∀ other place, next.mode = .inside other place ∨ next.mode = .escaped other place →
        other = quote ∧ place = start) → next.Placed (before ++ [c]) := by
    intro quote start open' kept same
    refine placed.append width ?_ fun entry member => Or.inl (kept ▸ member)
    intro other place string
    obtain ⟨rfl, rfl⟩ := same other place string
    exact (placed.string other place open').append [c]
  cases mode with
  | escaped quote start =>
    cases stepped
    refine within (Or.inr rfl) rfl ?_
    rintro other place (same | same) <;> cases same
    exact ⟨rfl, rfl⟩
  | inside quote start =>
    unfold Scan.step at stepped
    simp only at stepped
    refine within (Or.inl rfl) ?_ ?_
    · split at stepped
      · cases stepped; rfl
      · split at stepped <;> cases stepped <;> rfl
    · intro other place string
      split at stepped
      · cases stepped
        rcases string with same | same <;> cases same
        exact ⟨rfl, rfl⟩
      · split at stepped <;> cases stepped <;> rcases string with same | same <;> cases same
        exact ⟨rfl, rfl⟩
  | plain =>
    unfold Scan.step at stepped
    simp only at stepped
    by_cases quoted : isQuote c = true
    · rw [if_pos quoted] at stepped
      cases stepped
      refine placed.append width ?_ fun entry member => Or.inl member
      rintro other place (same | same) <;> cases same
      exact ⟨quoted, before, [], _, rfl, placed.offset.symm, run, rfl⟩
    · rw [if_neg quoted] at stepped
      have outside : next.mode = .plain → ∀ other place,
          next.mode = .inside other place ∨ next.mode = .escaped other place →
            OpensString (before ++ [c]) place other := by
        rintro plain other place (same | same) <;> rw [plain] at same <;> cases same
      cases opens : closerOf? c with
      | some closer =>
        rw [opens] at stepped
        cases stepped
        refine placed.append width (outside rfl) fun entry member => ?_
        rcases List.mem_cons.mp member with rfl | old
        · exact Or.inr ⟨rfl, opens⟩
        · exact Or.inl old
      | none =>
        rw [opens] at stepped
        simp only at stepped
        split at stepped
        · cases closers with
          | nil => cases stepped
          | cons entry outer =>
            simp only at stepped
            split at stepped
            · cases stepped
              exact placed.append width (outside rfl) fun other member =>
                Or.inl (List.mem_cons_of_mem _ member)
            · cases stepped
        · cases stepped
          exact placed.append width (outside rfl) fun entry member => Or.inl member

theorem placed_start : Scan.start.Placed [] where
  offset := rfl
  string := by rintro _ _ (same | same) <;> cases same
  bracket := List.forall_mem_nil _

/-- **Every state behind a text** says this about it. -/
theorem placed_of_run {text : List Char} {state : Scan} (run : Scan.start.run text = .ok state) :
    state.Placed text := by
  induction text using List.reverseRecOn generalizing state with
  | nil =>
    cases run
    exact placed_start
  | append_singleton text c ih =>
    rw [run_append] at run
    obtain ⟨middle, before, stepped⟩ := exists_of_bind_eq_ok run
    obtain ⟨next, stepped, same⟩ := exists_of_bind_eq_ok stepped
    cases same
    exact (ih before).step before stepped

/-- A run fails at a step. -/
theorem exists_of_run_error {text : List Char} {state : Scan} {cause : LiteralError}
    (failed : state.run text = .error cause) :
    ∃ before c after middle, text = before ++ c :: after ∧ state.run before = .ok middle ∧
      middle.step c = .error cause := by
  induction text generalizing state with
  | nil => cases failed
  | cons c rest ih =>
    rw [run_cons] at failed
    cases stepped : state.step c with
    | error other =>
      rw [stepped] at failed
      cases failed
      exact ⟨[], c, rest, state, rfl, rfl, stepped⟩
    | ok next =>
      rw [stepped] at failed
      obtain ⟨before, d, after, middle, rfl, run, last⟩ := ih failed
      refine ⟨c :: before, d, after, middle, rfl, ?_, last⟩
      rw [run_cons, stepped]
      exact run

/-- A step fails at a closing bracket. -/
theorem step_error {state : Scan} {c : Char} {cause : LiteralError}
    (failed : state.step c = .error cause) :
    cause = .unbalanced c state.offset ∧ isCloser c = true := by
  unfold step at failed
  simp only at failed
  repeat' split at failed
  all_goals cases failed
  all_goals exact ⟨rfl, by assumption⟩

end Scan

/-- **The error of a scan points to its place.** -/
theorem points_of_check {text : List Char} {cause : LiteralError}
    (failed : Scan.start.check text = .error cause) : cause.Points text := by
  cases run : Scan.start.run text with
  | error other =>
    rw [Scan.check, run] at failed
    cases failed
    obtain ⟨before, c, after, middle, rfl, reached, stepped⟩ := Scan.exists_of_run_error run
    obtain ⟨rfl, closes⟩ := Scan.step_error stepped
    exact ⟨⟨before, after, rfl, (Scan.placed_of_run reached).offset.symm⟩, Or.inl closes⟩
  | ok last =>
    rw [Scan.check, run] at failed
    have placed := Scan.placed_of_run run
    obtain ⟨offset, mode, closers⟩ := last
    cases mode with
    | inside quote start =>
      cases failed
      exact ⟨quote, placed.string quote start (Or.inl rfl)⟩
    | escaped quote start =>
      cases failed
      exact ⟨quote, placed.string quote start (Or.inr rfl)⟩
    | plain =>
      cases closers with
      | nil => cases failed
      | cons entry outer =>
        cases failed
        obtain ⟨place, opens⟩ := placed.bracket entry List.mem_cons_self
        exact ⟨place, Or.inr opens⟩

/-- **The error of a split points to its place**, whatever the separator. -/
theorem points_of_split {separator : Char} {text : List Char} {cause : LiteralError}
    (failed : splitTopLevel separator text = .error cause) : cause.Points text := by
  refine points_of_check ?_
  rw [← map_splitFrom separator]
  show (splitTopLevel separator text).map _ = _
  rw [failed]
  rfl

/-! ### White space at the ends -/

/-- White space behind a text is not what ends a string. -/
theorem check_of_blank {text : List Char} {c : Char} (blank : isBlank c = true)
    (sound : Scan.start.check (text ++ [c]) = .ok ()) : Scan.start.check text = .ok () := by
  rw [Scan.check, Scan.run_append] at sound
  obtain ⟨last, run, done⟩ := exists_of_bind_eq_ok sound
  obtain ⟨middle, before, run⟩ := exists_of_bind_eq_ok run
  obtain ⟨next, stepped, same⟩ := exists_of_bind_eq_ok run
  cases same
  obtain ⟨place, rfl⟩ := Scan.exists_of_finish done
  have placed := Scan.placed_of_run before
  have inert := inert_of_blank blank
  rw [Scan.check, before]
  obtain ⟨offset, mode, closers⟩ := middle
  cases mode with
  | escaped => cases stepped
  | inside quote start =>
    have mark := (placed.string quote start (Or.inl rfl)).1
    have other : c ≠ quote := by
      rintro rfl
      rw [isInert, mark] at inert
      cases inert
    unfold Scan.step at stepped
    simp only [if_neg other] at stepped
    split at stepped <;> cases stepped
  | plain =>
    rw [Scan.step_inert inert] at stepped
    cases stepped
    rfl

/-- **A text that is scanned without an error** is so when it is trimmed. -/
theorem check_trim {text : List Char} (sound : Scan.start.check text = .ok ()) :
    Scan.start.check (trim text) = .ok () := by
  obtain ⟨front, back, split, before, behind⟩ := exists_trim text
  have start : Scan.start.check (trim text ++ back) = .ok () := by
    have lead : Passed [] front := passed_of_blank before
    obtain ⟨next, passed⟩ := lead 0
    obtain ⟨positions, found⟩ := exists_positionsFrom sound ','
    rw [split] at found
    have found := (passed _).symm.trans found
    obtain ⟨part, others, later⟩ := exists_splitFrom (check_of_positionsFrom found) ','
    have alike : Scan.Alike ⟨next, .plain, []⟩ .start := ⟨rfl, rfl⟩
    exact check_of_splitFrom (splitFrom_of_alike alike later)
  clear split
  induction back using List.reverseRecOn with
  | nil => rwa [List.append_nil] at start
  | append_singleton back c ih =>
    obtain ⟨inner, last⟩ := List.forall_mem_append.mp behind
    rw [← List.append_assoc] at start
    exact ih inner (check_of_blank (last c List.mem_cons_self) start)

/-- White space behind a text goes to its last part. -/
theorem splitFrom_blank {blank : List Char} (all : ∀ c ∈ blank, isBlank c = true)
    {text : List Char} {state : Scan} {parts : List (List Char)}
    (split : splitFrom ',' state text = .ok parts) :
    ∃ front last, parts = front ++ [last] ∧
      splitFrom ',' state (text ++ blank) = .ok (front ++ [last ++ blank]) := by
  induction text generalizing state parts with
  | nil =>
    obtain ⟨_, done, rfl⟩ := exists_of_map_eq_ok split
    obtain ⟨offset, rfl⟩ := Scan.exists_of_finish done
    exact ⟨[], [], rfl, splitFrom_of_alike (Scan.alike_start offset)
      (splitFrom_of_positions (passed_of_blank all).closed)⟩
  | cons c rest ih =>
    obtain ⟨next, part, others, stepped, later, rfl⟩ := exists_of_splitFrom_cons split
    obtain ⟨front, last, same, longer⟩ := ih later
    rw [List.cons_append]
    cases front with
    | nil =>
      obtain ⟨rfl, rfl⟩ := List.cons.inj same
      rw [List.nil_append] at longer
      rw [splitFrom_cons stepped longer]
      cases state.separates ',' c with
      | true => exact ⟨[[]], part, rfl, rfl⟩
      | false => exact ⟨[], c :: part, rfl, rfl⟩
    | cons first front =>
      obtain ⟨rfl, rfl⟩ := List.cons.inj same
      rw [splitFrom_cons stepped longer]
      cases state.separates ',' c with
      | true => exact ⟨[] :: part :: front, last, rfl, rfl⟩
      | false => exact ⟨(c :: part) :: front, last, rfl, rfl⟩

/-- **White space around a text** changes nothing in its parts but the white space around them. -/
theorem exists_split_of_trim {text : List Char} {parts : List (List Char)}
    (split : splitTopLevel ',' (trim text) = .ok parts) :
    ∃ others, splitTopLevel ',' text = .ok others ∧ others.map trim = parts.map trim := by
  obtain ⟨before, behind, whole, blanksBefore, blanksBehind⟩ := exists_trim text
  obtain ⟨front, last, rfl, longer⟩ := splitFrom_blank blanksBehind split
  obtain ⟨part, others, same⟩ := List.exists_cons_of_ne_nil (splitFrom_ne_nil longer)
  rw [same] at longer
  have spaced : splitTopLevel ',' text = .ok ((before ++ part) :: others) := by
    rw [whole]
    exact splitFrom_append (passed_of_blank blanksBefore).closed fun offset =>
      splitFrom_of_alike (Scan.alike_start offset) longer
  refine ⟨_, spaced, ?_⟩
  calc ((before ++ part) :: others).map trim
      = (part :: others).map trim := by
        rw [List.map_cons, List.map_cons, trim_blank_append blanksBefore]
    _ = (front ++ [last ++ behind]).map trim := by rw [same]
    _ = (front ++ [last]).map trim := by
        rw [List.map_append, List.map_append, List.map_singleton, List.map_singleton,
          trim_append_blank blanksBehind]

/-- **Braces around a text** that is accepted without them change nothing. -/
theorem parseObjectLiteral_enclosed {text : String} {entries : List (String × String)}
    (accepted : parseObjectLiteral text = .ok entries)
    (bare : (trim text.toList).head? ≠ some '\x7b') :
    parseObjectLiteral ("\x7b" ++ text ++ "\x7d") = .ok entries := by
  have kept : stripBraces (trim text.toList) = trim text.toList := by
    unfold stripBraces
    split
    · rename_i rest start
      rw [start] at bare
      exact absurd rfl bare
    · rfl
  rw [parseObjectLiteral, kept] at accepted
  obtain ⟨parts, split, read⟩ := exists_of_bind_eq_ok accepted
  obtain ⟨others, longer, same⟩ := exists_split_of_trim split
  obtain ⟨positions, found⟩ := exists_positionsFrom (check_of_splitFrom longer) ','
  have level : topLevelPositions ',' text.toList = .ok positions := found
  have characters : ("\x7b" ++ text ++ "\x7d").toList = '\x7b' :: (text.toList ++ ['\x7d']) := by
    simp
  have inside : stripBraces ('\x7b' :: (text.toList ++ ['\x7d'])) = text.toList := by
    simp only [stripBraces, List.getLast?_concat, if_true, List.dropLast_concat, level]
  rw [parseObjectLiteral, characters, trim_enclosed (by decide) (by decide), inside, longer]
  exact (parseEntries_congr same).trans read

/-! ### Keys -/

/-- A key that has no meaning for a scan. -/
structure Key (key : List Char) : Prop where
  nonempty : key ≠ []
  trimmed : Trimmed key
  plain : ∀ c ∈ key, isQuote c = false ∧ closerOf? c = none ∧ isCloser c = false ∧
    c ≠ ',' ∧ c ≠ ':' ∧ c ≠ '\\'

instance (key : List Char) : Decidable (Key key) :=
  decidable_of_iff
    (key ≠ [] ∧ Trimmed key ∧ key.all (fun c => decide (isQuote c = false ∧ closerOf? c = none ∧
      isCloser c = false ∧ c ≠ ',' ∧ c ≠ ':' ∧ c ≠ '\\')) = true)
    ⟨fun ⟨nonempty, trimmed, plain⟩ => ⟨nonempty, trimmed, by simpa using plain⟩,
      fun ⟨nonempty, trimmed, plain⟩ => ⟨nonempty, trimmed, by simpa using plain⟩⟩

/-- How a key is written: bare or in quotes. -/
inductive SpellsKey (key : List Char) : List Char → Prop where
  | bare : SpellsKey key key
  | quoted {quote : Char} (mark : quote = '"' ∨ quote = '\x27') :
    SpellsKey key (quote :: (key ++ [quote]))

namespace SpellsKey

variable {key spelled : List Char}

/-- A written key is passed over. -/
theorem passed (own : Key key) (spells : SpellsKey key spelled) : Passed [] spelled := by
  cases spells with
  | bare =>
    refine passed_of_inert (List.all_eq_true.mpr fun c member => ?_)
    obtain ⟨plain, opens, closes, comma, _⟩ := own.plain c member
    simp [isInert, plain, opens, closes, comma]
  | @quoted quote mark =>
    have string : Expr.isStringQuote quote = true := by
      rcases mark with rfl | rfl <;> rfl
    refine passed_string string (Expr.Quoted.close.prepend fun c member => ?_)
    obtain ⟨plain, _, _, _, _, slash⟩ := own.plain c member
    refine ⟨?_, slash⟩
    rintro rfl
    rcases mark with rfl | rfl <;> cases plain

/-- No colon counts in a written key. -/
theorem closed_colon (own : Key key) (spells : SpellsKey key spelled) :
    topLevelPositions ':' spelled = .ok [] := by
  refine closed_of_not_mem ?_ (check_of_positionsFrom (spells.passed own).closed)
  have absent : ':' ∉ key := fun member => (own.plain _ member).2.2.2.2.1 rfl
  cases spells with
  | bare => exact absent
  | quoted mark => rcases mark with rfl | rfl <;> simpa using absent

/-- A written key starts with a character that is no white space, and is trimmed. -/
theorem exists_cons (own : Key key) (spells : SpellsKey key spelled) :
    (∃ c rest, spelled = c :: rest ∧ isBlank c = false) ∧ Trimmed spelled := by
  cases spells with
  | bare =>
    obtain ⟨c, rest, same⟩ := List.exists_cons_of_ne_nil own.nonempty
    have start := own.trimmed.ends.1
    rw [same] at start
    exact ⟨⟨c, rest, same, solid_of_trimStart start⟩, own.trimmed⟩
  | @quoted quote mark =>
    have solid : isBlank quote = false := by
      rcases mark with rfl | rfl <;> rfl
    exact ⟨⟨quote, _, rfl, solid⟩, trim_enclosed solid solid key⟩

/-- The key of a written key. -/
theorem unquote_eq (own : Key key) (spells : SpellsKey key spelled) :
    (unquote? spelled).getD spelled = key := by
  have whole : trim spelled = spelled := (spells.exists_cons own).2
  rw [unquote?, whole]
  cases spells with
  | bare =>
    obtain ⟨c, rest, rfl⟩ := List.exists_cons_of_ne_nil own.nonempty
    have plain := (own.plain c List.mem_cons_self).1
    simp only [isQuote, Bool.or_eq_false_iff, beq_eq_false_iff_ne] at plain
    simp [plain.1.1, plain.1.2]
  | quoted mark => simp [mark]

end SpellsKey

/-! ### Entries -/

/-- **The entry of a written key** is the key and the value, trimmed, where the brackets and quotes
of the value are closed. -/
theorem parseEntry_spelled {key spelled left : List Char} (own : Key key)
    (spells : SpellsKey key spelled) (sound : Scan.start.check left = .ok ()) :
    parseEntry (spelled ++ ':' :: left) = .ok (String.ofList key, String.ofList (trim left)) := by
  have whole : trim spelled = spelled := (spells.exists_cons own).2
  refine parseEntry_of_closed (spells.closed_colon own) sound ?_ own.nonempty
  rw [whole, spells.unquote_eq own]

/-- A written entry, trimmed: it loses the space behind its colon if it has no value. -/
theorem trim_spelled {key spelled value : List Char} (own : Key key)
    (spells : SpellsKey key spelled) (whole : Trimmed value) :
    ∃ left, trim (spelled ++ ':' :: ' ' :: value) = spelled ++ ':' :: left ∧
      (left = [] ∨ left = ' ' :: value) ∧ trim left = value := by
  obtain ⟨⟨c, rest, rfl, solid⟩, _⟩ := spells.exists_cons own
  by_cases empty : value = []
  · subst empty
    have colon : Trimmed [':'] := by decide
    have kept := trim_append solid colon (List.cons_ne_nil _ _) rest
    refine ⟨[], ?_, Or.inl rfl, rfl⟩
    have space : ∀ d ∈ [' '], isBlank d = true := List.forall_mem_singleton.mpr (by decide)
    have spaced := trim_append_blank space (c :: rest ++ [':'])
    rw [kept, List.append_assoc] at spaced
    exact spaced
  · have kept := trim_append solid whole empty (rest ++ [':', ' '])
    refine ⟨' ' :: value, by simpa using kept, Or.inr rfl, ?_⟩
    rw [trim_space]
    exact whole

/-- **The entries of an object literal**, each with the key as it is written, the key and the value.
Keys have no meaning for a scan; values are trimmed, close their brackets and quotes, and have no
comma outside of them. -/
structure Entry (entry : String × String × String) : Prop where
  key : Key entry.2.1.toList
  spells : SpellsKey entry.2.1.toList entry.1.toList
  trimmed : Trimmed entry.2.2.toList
  closed : topLevelPositions ',' entry.2.2.toList = .ok []

namespace Entry

variable {entry : String × String × String}

/-- No comma counts in an entry. -/
theorem closed_written (whole : Entry entry) :
    topLevelPositions ',' (entry.1.toList ++ ':' :: ' ' :: entry.2.2.toList) = .ok [] := by
  have front : Passed [] (entry.1.toList ++ [':', ' ']) :=
    (whole.spells.passed whole.key).append (passed_of_inert (by decide))
  obtain ⟨next, passed⟩ := front 0
  have later := passed entry.2.2.toList
  rw [List.append_assoc] at later
  exact later.trans (closed_of_alike (Scan.alike_start next) whole.closed)

/-- **An entry is read back.** -/
theorem parseEntry_eq (whole : Entry entry) :
    parseEntry (trim (entry.1.toList ++ ':' :: ' ' :: entry.2.2.toList)) = .ok entry.2 := by
  obtain ⟨left, kept, forms, value⟩ := trim_spelled whole.key whole.spells whole.trimmed
  have sound : Scan.start.check left = .ok () := by
    rcases forms with rfl | rfl
    · rfl
    · have front : Passed [] [' '] := passed_of_inert (by decide)
      obtain ⟨next, passed⟩ := front 0
      exact check_of_positionsFrom
        ((passed _).trans (closed_of_alike (Scan.alike_start next) whole.closed))
  rw [kept, parseEntry_spelled whole.key whole.spells sound, value, String.ofList_toList,
    String.ofList_toList]

end Entry

/-- Entries are read back in order. -/
theorem parseEntries_spelled {entries : List (String × String × String)}
    (whole : ∀ entry ∈ entries, Entry entry) :
    parseEntries (entries.map fun entry =>
      entry.1.toList ++ ':' :: ' ' :: entry.2.2.toList) = .ok (entries.map Prod.snd) := by
  induction entries with
  | nil => rfl
  | cons entry entries ih =>
    obtain ⟨own, others⟩ := List.forall_mem_cons.mp whole
    have read := own.parseEntry_eq
    have nonempty :
        (trim (entry.1.toList ++ ':' :: ' ' :: entry.2.2.toList)).isEmpty = false := by
      refine List.isEmpty_eq_false_iff.mpr fun empty => ?_
      rw [empty] at read
      cases read
    rw [List.map_cons, List.map_cons, parseEntries]
    simp only [nonempty, read, ih others]
    rfl

/-- **A list of entries is read back** from the object literal it is written as. -/
theorem parseObjectLiteral_literal {entries : List (String × String × String)}
    (whole : ∀ entry ∈ entries, Entry entry) :
    parseObjectLiteral
        ("\x7b" ++ ", ".intercalate (entries.map fun entry => entry.1 ++ ": " ++ entry.2.2) ++
          "\x7d") = .ok (entries.map Prod.snd) := by
  have closed : ∀ piece ∈ entries.map fun entry =>
      entry.1.toList ++ ':' :: ' ' :: entry.2.2.toList, topLevelPositions ',' piece = .ok [] := by
    intro piece member
    obtain ⟨entry, found, rfl⟩ := List.mem_map.mp member
    exact (whole entry found).closed_written
  have text : (", ".intercalate (entries.map fun entry =>
      entry.1 ++ ": " ++ entry.2.2)).toList = [',', ' '].intercalate (entries.map fun entry =>
        entry.1.toList ++ ':' :: ' ' :: entry.2.2.toList) := by
    rw [String.toList_intercalate, List.map_map]
    refine congrArg _ (List.map_congr_left fun entry _ => ?_)
    exact toList_written (entry.1, entry.2.2)
  have braced := parseObjectLiteral_braces closed
  rw [parseEntries_spelled whole] at braced
  refine Eq.trans (congrArg parseObjectLiteral ?_) braced
  rw [← text, ← String.toList_inj]
  simp only [String.toList_append, String.toList_ofList]
  rfl

/-! ### Object literals -/

/-- **Object literals are taken apart as they are put together.** Joining the parts of a split gives
the text, and no separator counts in a part; the error of a split points to its bracket or quote.
What the split at commas gives is scanned for colons without an error. Entries are read back as they
were written, and braces around a text that is accepted without them change nothing. -/
theorem objectLiteral_scans :
    (∀ (separator : Char) (text : List Char) (parts : List (List Char)),
      splitTopLevel separator text = .ok parts →
        [separator].intercalate parts = text ∧
        ∀ part ∈ parts, topLevelPositions separator part = .ok []) ∧
    (∀ (separator : Char) (text : List Char) (cause : LiteralError),
      splitTopLevel separator text = .error cause → cause.Points text) ∧
    (∀ (text : String) (parts : List (List Char)),
      splitTopLevel ',' (stripBraces (trim text.toList)) = .ok parts →
        ∀ part ∈ parts, ∃ positions, topLevelPositions ':' (trim part) = .ok positions) ∧
    (∀ entries : List (String × String × String), (∀ entry ∈ entries, Entry entry) →
      parseObjectLiteral
        ("\x7b" ++ ", ".intercalate (entries.map fun entry => entry.1 ++ ": " ++ entry.2.2) ++
          "\x7d") = .ok (entries.map Prod.snd)) ∧
    ∀ (text : String) (entries : List (String × String)),
      parseObjectLiteral text = .ok entries → (trim text.toList).head? ≠ some '\x7b' →
        parseObjectLiteral ("\x7b" ++ text ++ "\x7d") = .ok entries := by
  refine ⟨?_, fun _ _ _ => points_of_split, ?_, fun _ => parseObjectLiteral_literal,
    fun _ _ => parseObjectLiteral_enclosed⟩
  · intro separator text parts split
    exact ⟨intercalate_splitFrom split, closed_of_mem_split split⟩
  · intro text parts split part member
    exact exists_positionsFrom
      (check_trim (check_of_positionsFrom (closed_of_mem_split split part member))) ':'

/-- A list with a comma in quotes and an entry without a value is read back, the error of an open
bracket points behind a character of two bytes, and braces change nothing. -/
theorem objectLiteral_scans_samples :
    parseObjectLiteral "\x7b\x27a-b\x27: f(x, \x27,\x27), c d: \x7d" =
        .ok [("a-b", "f(x, \x27,\x27)"), ("c d", "")] ∧
      At "é: f(a".toList 5 '(' ∧
      parseObjectLiteral "\x7b a: b ,\x7d" = .ok [("a", "b")] := by
  obtain ⟨_, points, _, read, braces⟩ := objectLiteral_scans
  have first : Entry ("\x27a-b\x27", "a-b", "f(x, \x27,\x27)") :=
    ⟨by decide, .quoted (Or.inr rfl), by decide, rfl⟩
  have second : Entry ("c d", "c d", "") :=
    ⟨by decide, .bare, by decide, rfl⟩
  refine ⟨?_, ?_, ?_⟩
  · have text : "\x7b\x27a-b\x27: f(x, \x27,\x27), c d: \x7d" = "\x7b" ++ ", ".intercalate
        ([("\x27a-b\x27", "a-b", "f(x, \x27,\x27)"), ("c d", "c d", "")].map
          fun entry => entry.1 ++ ": " ++ entry.2.2) ++ "\x7d" := by
      decide
    rw [text, read _ (List.forall_mem_cons.mpr ⟨first, List.forall_mem_singleton.mpr second⟩)]
    rfl
  · exact (points ',' "é: f(a".toList (.unbalanced '(' 5) rfl).1
  · exact braces " a: b ," [("a", "b")] rfl (by decide)

end DataBind.Binding
