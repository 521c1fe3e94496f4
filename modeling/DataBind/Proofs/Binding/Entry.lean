/-
**One binding, as an entry and as a comment.**

A binding is written as a kind, a colon and the source of its value. Where the source closes its
brackets and quotes and has no comma outside of them, an object literal and a marker comment read
the same binding from this.

* `Operand`: the source of a value that can stand alone;
* `parseObjectLiteral_entry`: what an object literal of one entry gives;
* `parseDirective_opening`: what a marker comment gives.
-/

import DataBind.Binding.Container
import DataBind.Binding.Directive
import DataBind.Proofs.Binding.Scanning
import DataBind.Proofs.Text.Trimming

namespace DataBind.Binding

open DataBind.Text

/-! ### Names and values -/

/-- Whether a character of a name has no meaning for a scan, and is no white space. -/
def isBare (c : Char) : Bool :=
  !isQuote c && (closerOf? c).isNone && !isCloser c && c != ':' && c != ',' && !isBlank c

/-- The source of a value that can stand alone: trimmed and not empty, its brackets and quotes
closed, and no comma outside of them. -/
structure Operand (source : String) : Prop where
  trimmed : Trimmed source.toList
  solid : source ≠ ""
  closed : topLevelPositions ',' source.toList = .ok []

theorem isBare_name (kind : Kind) : kind.name.toList.all isBare = true := by
  cases kind <;> decide

/-- Outside of brackets and quotes a character without meaning is passed over. -/
theorem splitFrom_bare {separator c : Char} {offset : Nat} (plain : isQuote c = false)
    (opens : closerOf? c = none) (closes : isCloser c = false) (other : c ≠ separator)
    {rest part : List Char} {others : List (List Char)}
    (split : ∀ offset, splitFrom separator ⟨offset, .plain, []⟩ rest = .ok (part :: others)) :
    splitFrom separator ⟨offset, .plain, []⟩ (c :: rest) = .ok ((c :: part) :: others) := by
  have stepped : Scan.step ⟨offset, .plain, []⟩ c = .ok ⟨offset + c.utf8Size, .plain, []⟩ := by
    simp [Scan.step, plain, opens, closes]
  have kept : Scan.separates separator ⟨offset, .plain, []⟩ c = false := by
    simp [Scan.separates, other]
  rw [splitFrom_cons stepped (split _), kept]
  rfl

theorem splitFrom_name {separator : Char} (mark : separator = ':' ∨ separator = ',')
    {name rest part : List Char} {others : List (List Char)} (bare : name.all isBare = true)
    (split : ∀ offset, splitFrom separator ⟨offset, .plain, []⟩ rest = .ok (part :: others))
    (offset : Nat) :
    splitFrom separator ⟨offset, .plain, []⟩ (name ++ rest) =
      .ok ((name ++ part) :: others) := by
  induction name generalizing offset with
  | nil => exact split offset
  | cons c name ih =>
    rw [List.all_cons, Bool.and_eq_true] at bare
    obtain ⟨first, later⟩ := bare
    simp only [isBare, Bool.and_eq_true, Bool.not_eq_true', Option.isNone_iff_eq_none,
      bne_iff_ne] at first
    obtain ⟨⟨⟨⟨⟨plain, opens⟩, closes⟩, colon⟩, comma⟩, _⟩ := first
    have other : c ≠ separator := by
      rcases mark with rfl | rfl
      · exact colon
      · exact comma
    exact splitFrom_bare plain opens closes other fun offset => ih later offset

namespace Operand

variable {source : String}

theorem toList_ne_nil (operand : Operand source) : source.toList ≠ [] :=
  fun empty => operand.solid (String.toList_eq_nil_iff.mp empty)

/-- A value is one part of a list, wherever it stands. -/
theorem split_comma (operand : Operand source) (offset : Nat) :
    splitFrom ',' ⟨offset, .plain, []⟩ source.toList = .ok [source.toList] :=
  splitFrom_of_alike (Scan.alike_start offset) (splitFrom_of_positions operand.closed)

end Operand

/-! ### One binding -/

/-- The characters of a binding: a kind, a colon, a space and a value. -/
theorem toList_entry (kind : Kind) (source : String) :
    (kind.name ++ ": " ++ source).toList = kind.name.toList ++ ':' :: ' ' :: source.toList := by
  rw [String.toList_append, String.toList_append, List.append_assoc]
  rfl

/-- A name starts with a letter. -/
theorem exists_cons_name (kind : Kind) : ∃ c rest, kind.name.toList = c :: rest ∧
    isBlank c = false ∧ c ≠ '\x7b' := by
  cases kind <;> exact ⟨_, _, rfl, by decide, by decide⟩

theorem trim_entry (kind : Kind) {source : String} (operand : Operand source) :
    trim (kind.name.toList ++ ':' :: ' ' :: source.toList) =
      kind.name.toList ++ ':' :: ' ' :: source.toList := by
  obtain ⟨c, rest, named, solid, _⟩ := exists_cons_name kind
  have trimmed := trim_append solid operand.trimmed operand.toList_ne_nil (rest ++ [':', ' '])
  rw [named]
  simpa using trimmed

/-- A bare name is trimmed, and stands in no quotes. -/
theorem unquote?_bare {name : List Char} (bare : name.all isBare = true) :
    trim name = name ∧ unquote? name = none := by
  have marks : ∀ c ∈ name, isBlank c = false ∧ isQuote c = false := by
    intro c member
    have mark := List.all_eq_true.mp bare c member
    simp only [isBare, Bool.and_eq_true, Bool.not_eq_true'] at mark
    exact ⟨mark.2, mark.1.1.1.1.1⟩
  have whole : trim name = name := trimmed_of_solid fun c member => (marks c member).1
  refine ⟨whole, ?_⟩
  rw [unquote?, whole]
  cases name with
  | nil => rfl
  | cons c rest =>
    have plain := (marks c List.mem_cons_self).2
    simp only [isQuote, Bool.or_eq_false_iff, beq_eq_false_iff_ne] at plain
    exact if_neg fun quoted => quoted.1.elim plain.1.1 plain.1.2

/-- No colon counts in a bare name. -/
theorem closed_of_bare {name : List Char} (bare : name.all isBare = true) :
    topLevelPositions ':' name = .ok [] := by
  have behind : ∀ offset, splitFrom ':' ⟨offset, .plain, []⟩ [] = .ok [[]] := fun _ => rfl
  have alone := splitFrom_name (Or.inl rfl) bare behind 0
  rw [List.append_nil] at alone
  exact positions_of_splitFrom alone

/-- **An entry** is its key, without quotes, and its value, both trimmed. No colon counts in what
stands before the first one, and the brackets and quotes of the value are closed. -/
theorem parseEntry_of_closed {front text key : List Char}
    (closed : topLevelPositions ':' front = .ok []) (sound : Scan.start.check text = .ok ())
    (named : (unquote? (trim front)).getD (trim front) = key) (nonempty : key ≠ []) :
    parseEntry (front ++ ':' :: text) = .ok (String.ofList key, String.ofList (trim text)) := by
  obtain ⟨part, others, split⟩ := exists_splitFrom sound ':'
  have apart : splitTopLevel ':' (front ++ ':' :: text) =
      .ok ((front ++ []) :: part :: others) := by
    refine splitFrom_append closed fun offset => ?_
    rw [splitFrom_cons rfl (splitFrom_of_alike (Scan.alike_start _) split)]
    rfl
  have value : (front ++ ':' :: text).drop (front.length + 1) = text := by
    rw [List.drop_append, List.drop_of_length_le (by omega), List.nil_append,
      show front.length + 1 - front.length = 1 by omega, List.drop_one, List.tail_cons]
  rw [parseEntry, apart, List.append_nil]
  simp only [bind, Except.bind, named, List.isEmpty_eq_false_iff.mpr nonempty,
    Bool.false_eq_true, if_false, value]
  rfl

/-- **The entry of a bare name** is the name and the value, trimmed, where the brackets and quotes
of the value are closed. -/
theorem parseEntry_named {name text : List Char} (bare : name.all isBare = true)
    (nonempty : name ≠ []) {positions : List Nat}
    (closed : topLevelPositions ',' text = .ok positions) :
    parseEntry (name ++ ':' :: ' ' :: text) =
      .ok (String.ofList name, String.ofList (trim text)) := by
  have sound : Scan.start.check (' ' :: text) = .ok () := by
    obtain ⟨part, others, split⟩ := exists_splitFrom (check_of_positionsFrom closed) ':'
    exact check_of_splitFrom (splitFrom_bare (by decide) (by decide) (by decide) (by decide)
      fun offset => splitFrom_of_alike (Scan.alike_start offset) split)
  obtain ⟨whole, unquoted⟩ := unquote?_bare bare
  rw [parseEntry_of_closed (closed_of_bare bare) sound (by rw [whole, unquoted]; rfl) nonempty,
    trim_space]

/-- The entry of a binding is its kind and its value. -/
theorem parseEntry_entry (kind : Kind) {source : String} (operand : Operand source) :
    parseEntry (kind.name.toList ++ ':' :: ' ' :: source.toList) = .ok (kind.name, source) := by
  have nonempty : kind.name.toList ≠ [] := by
    cases kind <;> decide
  rw [parseEntry_named (isBare_name kind) nonempty operand.closed,
    show trim source.toList = source.toList from operand.trimmed, String.ofList_toList,
    String.ofList_toList]

/-- **An object literal of one entry** gives its kind and its value. -/
theorem parseObjectLiteral_entry (kind : Kind) {source : String} (operand : Operand source) :
    parseObjectLiteral (kind.name ++ ": " ++ source) = .ok [(kind.name, source)] := by
  have whole : splitTopLevel ',' (kind.name.toList ++ ':' :: ' ' :: source.toList) =
      .ok [kind.name.toList ++ ':' :: ' ' :: source.toList] :=
    splitFrom_name (Or.inr rfl) (isBare_name kind) (fun offset =>
      splitFrom_bare (by decide) (by decide) (by decide) (by decide) fun offset =>
        splitFrom_bare (by decide) (by decide) (by decide) (by decide) operand.split_comma) 0
  have kept : stripBraces (kind.name.toList ++ ':' :: ' ' :: source.toList) =
      kind.name.toList ++ ':' :: ' ' :: source.toList := by
    obtain ⟨c, rest, named, _, brace⟩ := exists_cons_name kind
    rw [named, List.cons_append, stripBraces]
    simp [brace]
  have nonempty : (kind.name.toList ++ ':' :: ' ' :: source.toList).isEmpty = false :=
    List.isEmpty_eq_false_iff.mpr (List.append_ne_nil_of_right_ne_nil _ (List.cons_ne_nil _ _))
  rw [parseObjectLiteral, toList_entry, trim_entry kind operand, kept, whole]
  show parseEntries [_] = _
  rw [parseEntries]
  simp only [trim_entry kind operand, nonempty, parseEntry_entry kind operand]
  rfl

/-- The bindings of an element with one entry. -/
theorem parseContainer_entry (kind : Kind) {source : String} (operand : Operand source)
    (tag : String) : parseContainer (kind.name ++ ": " ++ source) tag = pure [⟨kind, source⟩] := by
  have entries : entriesOf (kind.name ++ ": " ++ source) = .ok [(kind.name, source)] := by
    rw [entriesOf, parseObjectLiteral_entry kind operand]
  have binding : ofEntry? (kind.name, source) = some ⟨kind, source⟩ := by
    unfold ofEntry?
    rw [Kind.ofName?_name]
    rfl
  have quiet : conflict? [⟨kind, source⟩] = none := by
    cases kind <;> rfl
  rw [parseContainer, entries, Checked.lift]
  simp only [bind, List.filterMap_cons, binding, List.filterMap_nil, distinctKinds,
    List.not_mem_nil, if_false, pure, List.append_nil, quiet]

/-- **A marker comment** of a binding opens a block with that binding. -/
theorem parseDirective_opening {config : Config} (free : config.noConflict = false) {kind : Kind}
    (containerless : kind.isContainerless = true) {source : String} (operand : Operand source)
    {comment : String} (text : trimmed comment = "ko " ++ kind.name ++ ": " ++ source) :
    parseDirective comment config = some (.opening ⟨kind, source⟩) := by
  have characters : trim comment.toList =
      ['k', 'o', ' '] ++ (kind.name.toList ++ ':' :: ' ' :: source.toList) := by
    have same := congrArg String.toList text
    rw [trimmed, String.toList_ofList, String.append_assoc, String.append_assoc,
      String.toList_append, ← String.append_assoc, toList_entry] at same
    exact same
  have cut : cutAt ':' (kind.name.toList ++ ':' :: ' ' :: source.toList) =
      some (kind.name.toList, ' ' :: source.toList) := by
    cases kind <;> rfl
  have spaces : (' ' :: (kind.name.toList ++ ':' :: ' ' :: source.toList)).dropWhile (· == ' ') =
      kind.name.toList ++ ':' :: ' ' :: source.toList := by
    cases kind <;> rfl
  have named : Kind.ofName? (String.ofList (trimSpaces kind.name.toList)) = some kind := by
    cases kind <;> decide
  have opened : parseOpening? (' ' :: (kind.name.toList ++ ':' :: ' ' :: source.toList)) =
      some ⟨kind, source⟩ := by
    have value : trim source.toList = source.toList := operand.trimmed
    rw [parseOpening?, spaces, cut]
    simp only [Option.bind_some, named, trim_space, value, containerless,
      List.isEmpty_eq_false_iff.mpr operand.toList_ne_nil, String.ofList_toList]
    rfl
  have other : ∀ rest : List Char, ['k', 'o', ' '] ++ rest ≠ ['/', 'k', 'o'] ∧
      ['k', 'o', ' '] ++ rest ≠ ['/', 'h', 'z'] := by
    intro rest
    constructor <;> intro same <;> exact absurd (List.cons.inj same).1 (by decide)
  have mark : afterMark? (['k', 'o', ' '] ++ (kind.name.toList ++ ':' :: ' ' :: source.toList)) =
      some (' ' :: (kind.name.toList ++ ':' :: ' ' :: source.toList)) := rfl
  rw [parseDirective]
  simp only [characters, free, Bool.false_and, Bool.false_eq_true, if_false, (other _).1,
    (other _).2, or_self, mark, Option.bind_some, opened, Option.map_some]

end DataBind.Binding
