/-
**The declarations of a style, in their order and read back.**

The text of a style is taken apart at semicolons, and a part declares a property if it has a name
and a value around its first colon. A property that is declared again keeps its place and takes the
later value. Where the brackets and quotes of the text match, they match in every value, so that the
declarations can be written out and are read back.

* `Declares`, `parseDeclaration?_eq_some_iff`: what a part declares;
* `WellFormed`: a declaration as it can be written; `Declares.wellFormed`: what is declared is so;
* `Parts`, `parts_splitDeclarations`: how a text is taken apart;
* `Cascade`: what the parts of a text come to; `cascade_fold`: what they are folded into;
* `Declares.closed`: the brackets and quotes of a value match where those of its part do;
* `parseDeclarations_sheetText`: declarations are read back from the text they are written as;
* `parseDeclarations_exact`: all of this together.
-/

import DataBind.Proofs.Binding.Literal
import DataBind.Proofs.Text.Cutting
import DataBind.Proofs.Text.Lowering
import DataBind.Proofs.Text.Pieces
import DataBind.Style
import DataBind.Template.Render

namespace DataBind.Style

open DataBind.Text Binding

/-! ### What a part declares -/

/-- **A part that declares a property**: a name in any case before its first colon, and a value
behind it. -/
structure Declares (part : List Char) (declaration : Declaration) : Prop where
  colon : ∃ left right, part = left ++ ':' :: right ∧ ':' ∉ left ∧
    declaration.1.toList = asciiLower (trim left) ∧ declaration.2.toList = trim right
  named : declaration.1 ≠ ""
  characters : ∀ c ∈ declaration.1.toList, isPropertyCharacter c = true
  valued : declaration.2 ≠ ""

/-- Whether a character can stand in the name of a property, which is in lower case. -/
def isNameCharacter (c : Char) : Bool :=
  c.isLower || c.isDigit || c == '-' || c == '_'

/-- **A declaration as it can be written**: a name in lower case, and a trimmed value. -/
structure WellFormed (declaration : Declaration) : Prop where
  named : declaration.1 ≠ ""
  characters : ∀ c ∈ declaration.1.toList, isNameCharacter c = true
  valued : declaration.2 ≠ ""
  trimmed : Trimmed declaration.2.toList

variable {part : List Char} {parts : List (List Char)} {declaration : Declaration}
  {declarations : List Declaration}

/-- **The declaration of a part** is what it declares. -/
theorem parseDeclaration?_eq_some_iff :
    parseDeclaration? part = some declaration ↔ Declares part declaration := by
  constructor
  · intro read
    obtain ⟨⟨left, right⟩, cut, read⟩ := Option.bind_eq_some_iff.mp read
    simp only at read
    split at read
    · cases read
    · rename_i valid
      cases read
      simp only [Bool.or_eq_true, Bool.not_eq_true', not_or, Bool.not_eq_true, Bool.not_eq_false,
        List.isEmpty_eq_false_iff, List.all_eq_true] at valid
      obtain ⟨whole, absent⟩ := cutAt_eq_some_iff.mp cut
      refine ⟨⟨left, right, whole, absent, String.toList_ofList, String.toList_ofList⟩, ?_, ?_, ?_⟩
      · exact fun empty => valid.1.1 (String.ofList_eq_empty_iff.mp empty)
      · rw [String.toList_ofList]
        exact valid.1.2
      · exact fun empty => valid.2 (String.ofList_eq_empty_iff.mp empty)
  · rintro ⟨⟨left, right, rfl, absent, name, value⟩, named, characters, valued⟩
    have valid : ¬ ((asciiLower (trim left)).isEmpty ||
        !(asciiLower (trim left)).all isPropertyCharacter || (trim right).isEmpty) = true := by
      rw [← name, ← value]
      simpa [named, valued] using characters
    rw [parseDeclaration?, cutAt_eq_some_iff.mpr ⟨rfl, absent⟩, Option.bind_some]
    simp only [if_neg valid]
    rw [← name, ← value, String.ofList_toList, String.ofList_toList]

/-- A part declares one thing. -/
theorem Declares.unique {other : Declaration} (own : Declares part declaration)
    (foreign : Declares part other) : declaration = other :=
  Option.some.inj
    ((parseDeclaration?_eq_some_iff.mpr own).symm.trans (parseDeclaration?_eq_some_iff.mpr foreign))

/-- Of the characters of names those in lower case are left. -/
theorem isNameCharacter_of_mem_asciiLower {text : List Char} {c : Char}
    (member : c ∈ asciiLower text) (character : isPropertyCharacter c = true) :
    isNameCharacter c = true := by
  obtain ⟨d, _, rfl⟩ := List.mem_map.mp member
  cases alpha : d.isAlpha with
  | true =>
    exact forall_isAlpha (motive := fun d => isNameCharacter d.toLower = true) (by decide) alpha
  | false =>
    rw [toLower_of_not_isAlpha alpha] at character ⊢
    simp only [isPropertyCharacter, Char.isAlphanum, alpha, Bool.false_or] at character
    simp only [isNameCharacter, Bool.or_assoc] at character ⊢
    rw [character, Bool.or_true]

/-- **What a part declares can be written.** -/
theorem Declares.wellFormed (declares : Declares part declaration) : WellFormed declaration := by
  obtain ⟨left, right, _, _, name, value⟩ := declares.colon
  refine ⟨declares.named, fun c member => ?_, declares.valued, ?_⟩
  · exact isNameCharacter_of_mem_asciiLower (name ▸ member) (declares.characters c member)
  · rw [value]
    exact trimmed_trim right

/-! ### Parts -/

/-- **How a text is taken apart**: at the semicolons outside of brackets and quotes, or at all
semicolons if brackets and quotes do not match. -/
structure Parts (text : List Char) (parts : List (List Char)) : Prop where
  nonempty : parts ≠ []
  joined : [';'].intercalate parts = text
  matched : ∀ positions, topLevelPositions ';' text = .ok positions →
    ∀ part ∈ parts, topLevelPositions ';' part = .ok []
  unmatched : ∀ cause, topLevelPositions ';' text = .error cause → ∀ part ∈ parts, ';' ∉ part

/-- The pieces between all occurrences of a character. -/
theorem pieces_singleton (mark : Char) (text : List Char) :
    [mark].intercalate (pieces [mark] text) = text ∧
      ∀ piece ∈ pieces [mark] text, mark ∉ piece := by
  have nonempty : [mark] ≠ [] := List.cons_ne_nil mark []
  refine ⟨intercalate_pieces nonempty text, fun piece member inside => ?_⟩
  exact not_infix_of_mem_pieces nonempty piece member ((List.singleton_infix_iff _ _).mpr inside)

theorem parts_splitDeclarations (text : List Char) : Parts text (splitDeclarations text) := by
  unfold splitDeclarations
  split
  · rename_i parts split
    refine ⟨splitFrom_ne_nil split, intercalate_splitFrom split,
      fun _ _ => closed_of_mem_split split, fun cause failed => ?_⟩
    obtain ⟨positions, found⟩ := exists_positionsFrom (check_of_splitFrom split) ';'
    rw [topLevelPositions, found] at failed
    cases failed
  · rename_i cause failed
    obtain ⟨joined, free⟩ := pieces_singleton ';' text
    refine ⟨piecesFrom_ne_nil _ _ _, joined, fun positions found => ?_, fun _ _ => free⟩
    obtain ⟨part, others, split⟩ := exists_splitFrom (check_of_positionsFrom found) ';'
    rw [splitTopLevel, split] at failed
    cases failed

/-! ### What the parts come to -/

/-- A property that some part declares before any part declares another one. -/
def Precedes (parts : List (List Char)) (first second : String) : Prop :=
  ∃ before part after, parts = before ++ part :: after ∧ (∃ value, Declares part (first, value)) ∧
    ∀ earlier ∈ before ++ [part], ∀ value, ¬ Declares earlier (second, value)

/-- **What the parts of a text come to**: every property that is declared once, in the order of the
first declarations and with the value of its last one. -/
structure Cascade (parts : List (List Char)) (declarations : List Declaration) : Prop where
  nodup : (declarations.map Prod.fst).Nodup
  mem_iff : ∀ declaration, declaration ∈ declarations ↔
    ∃ before part after, parts = before ++ part :: after ∧ Declares part declaration ∧
      ∀ later ∈ after, ∀ value, ¬ Declares later (declaration.1, value)
  order : (declarations.map Prod.fst).Pairwise (Precedes parts)

theorem Precedes.append {first second : String} (precedes : Precedes parts first second)
    (more : List (List Char)) : Precedes (parts ++ more) first second := by
  obtain ⟨before, part, after, rfl, declared, earlier⟩ := precedes
  exact ⟨before, part, after ++ more, by simp, declared, earlier⟩

/-- Setting a property leaves the others, and takes the place of what was declared of it. -/
theorem mem_setDeclaration (nodup : (declarations.map Prod.fst).Nodup) {other : Declaration} :
    other ∈ setDeclaration declaration declarations ↔
      other = declaration ∨ other ∈ declarations ∧ other.1 ≠ declaration.1 := by
  induction declarations with
  | nil => simp [setDeclaration]
  | cons first rest ih =>
    obtain ⟨apart, later⟩ := List.nodup_cons.mp nodup
    rw [setDeclaration]
    by_cases same : first.1 = declaration.1
    · rw [if_pos same, List.mem_cons, List.mem_cons]
      refine or_congr_right ⟨fun inside => ⟨Or.inr inside, fun equal => apart ?_⟩, ?_⟩
      · rw [same, ← equal]
        exact List.mem_map_of_mem inside
      · rintro ⟨rfl | inside, different⟩
        · exact absurd same different
        · exact inside
    · rw [if_neg same, List.mem_cons, List.mem_cons, ih later]
      constructor
      · rintro (rfl | rfl | ⟨inside, different⟩)
        · exact Or.inr ⟨Or.inl rfl, same⟩
        · exact Or.inl rfl
        · exact Or.inr ⟨Or.inr inside, different⟩
      · rintro (rfl | ⟨rfl | inside, different⟩)
        · exact Or.inr (Or.inl rfl)
        · exact Or.inl rfl
        · exact Or.inr (Or.inr ⟨inside, different⟩)

/-- A property that is new comes last. -/
theorem setDeclaration_of_not_mem (new : declaration.1 ∉ declarations.map Prod.fst) :
    setDeclaration declaration declarations = declarations ++ [declaration] := by
  induction declarations with
  | nil => rfl
  | cons first rest ih =>
    rw [List.map_cons, List.mem_cons, not_or] at new
    rw [setDeclaration, if_neg (Ne.symm new.1), ih new.2, List.cons_append]

/-- A part of a list is its last one, or a part of what stands before that. -/
theorem concat_eq_iff {last : List Char} {before after : List (List Char)} :
    parts ++ [last] = before ++ part :: after ↔
      (before = parts ∧ part = last ∧ after = []) ∨
        ∃ inner, after = inner ++ [last] ∧ parts = before ++ part :: inner := by
  rcases List.eq_nil_or_concat after with rfl | ⟨inner, other, rfl⟩
  · constructor
    · intro same
      obtain ⟨front, own⟩ := List.append_inj' same rfl
      exact Or.inl ⟨front.symm, (List.cons.inj own).1.symm, rfl⟩
    · rintro (⟨rfl, rfl, -⟩ | ⟨inner, empty, -⟩)
      · rfl
      · exact absurd empty.symm (List.concat_ne_nil _ _)
  · rw [List.concat_eq_append, ← List.cons_append, ← List.append_assoc]
    constructor
    · intro same
      obtain ⟨front, own⟩ := List.append_inj' same rfl
      cases own
      exact Or.inr ⟨inner, rfl, front⟩
    · rintro (⟨-, -, empty⟩ | ⟨more, same, rfl⟩)
      · exact absurd empty (List.append_ne_nil_of_right_ne_nil _ (List.cons_ne_nil _ _))
      · obtain ⟨rfl, own⟩ := List.append_inj' same rfl
        rw [own]

/-- Of the parts that declare a property one is the last. -/
theorem exists_last {name value : String} (inside : part ∈ parts)
    (declares : Declares part (name, value)) :
    ∃ before last after value, parts = before ++ last :: after ∧ Declares last (name, value) ∧
      ∀ later ∈ after, ∀ value, ¬ Declares later (name, value) := by
  induction parts using List.reverseRecOn with
  | nil => cases inside
  | append_singleton front last ih =>
    by_cases own : ∃ value, Declares last (name, value)
    · obtain ⟨value, own⟩ := own
      exact ⟨front, last, [], value, rfl, own, List.forall_mem_nil _⟩
    · have within : part ∈ front := by
        rcases List.mem_append.mp inside with within | same
        · exact within
        · exact absurd ⟨value, List.mem_singleton.mp same ▸ declares⟩ own
      obtain ⟨before, middle, after, found, rfl, also, none⟩ := ih within
      refine ⟨before, middle, after ++ [last], found, by simp, also, ?_⟩
      exact List.forall_mem_append.mpr ⟨none,
        List.forall_mem_singleton.mpr fun value also => own ⟨value, also⟩⟩

/-- A property is among the declarations just if some part declares it. -/
theorem Cascade.mem_names_iff (cascade : Cascade parts declarations) {name : String} :
    name ∈ declarations.map Prod.fst ↔ ∃ part ∈ parts, ∃ value, Declares part (name, value) := by
  constructor
  · intro member
    obtain ⟨⟨_, value⟩, inside, rfl⟩ := List.mem_map.mp member
    obtain ⟨before, part, after, rfl, declares, _⟩ := (cascade.mem_iff _).mp inside
    exact ⟨part, by simp, value, declares⟩
  · rintro ⟨part, inside, value, declares⟩
    obtain ⟨before, last, after, value, split, also, none⟩ := exists_last inside declares
    exact List.mem_map_of_mem ((cascade.mem_iff (name, value)).mpr
      ⟨before, last, after, split, also, none⟩)

theorem cascade_nil : Cascade [] [] where
  nodup := List.nodup_nil
  mem_iff declaration := by simp
  order := List.Pairwise.nil

/-- A part that declares nothing changes nothing. -/
theorem Cascade.skip (cascade : Cascade parts declarations)
    (silent : ∀ declaration, ¬ Declares part declaration) :
    Cascade (parts ++ [part]) declarations where
  nodup := cascade.nodup
  mem_iff declaration := by
    rw [cascade.mem_iff]
    constructor
    · rintro ⟨before, own, after, rfl, declares, none⟩
      refine ⟨before, own, after ++ [part], by simp, declares, ?_⟩
      exact List.forall_mem_append.mpr ⟨none, List.forall_mem_singleton.mpr fun _ => silent _⟩
    · rintro ⟨before, own, after, same, declares, none⟩
      rcases concat_eq_iff.mp same with ⟨rfl, rfl, rfl⟩ | ⟨inner, rfl, rfl⟩
      · exact absurd declares (silent declaration)
      · exact ⟨before, own, inner, rfl, declares, (List.forall_mem_append.mp none).1⟩
  order := cascade.order.imp fun precedes => precedes.append [part]

/-- **A part that declares a property sets it.** -/
theorem Cascade.declare (cascade : Cascade parts declarations)
    (declares : Declares part declaration) :
    Cascade (parts ++ [part]) (setDeclaration declaration declarations) := by
  have known : ((setDeclaration declaration declarations).map Prod.fst).Nodup ∧
      ((setDeclaration declaration declarations).map Prod.fst).Pairwise
        (Precedes (parts ++ [part])) := by
    have kept := cascade.order.imp fun precedes => precedes.append [part]
    by_cases present : declaration.1 ∈ declarations.map Prod.fst
    · rw [setDeclaration_keys present]
      exact ⟨cascade.nodup, kept⟩
    · rw [setDeclaration_of_not_mem present, List.map_append]
      refine ⟨List.nodup_append.mpr ⟨cascade.nodup, List.pairwise_singleton _ _, ?_⟩,
        List.pairwise_append.mpr ⟨kept, List.pairwise_singleton _ _, ?_⟩⟩
      · rintro name inside _ last rfl
        exact present (List.mem_singleton.mp last ▸ inside)
      · -- what has been declared so far precedes the property that is new
        intro name inside last new
        obtain ⟨other, within, value, also⟩ := cascade.mem_names_iff.mp inside
        obtain ⟨before, after, rfl⟩ := List.append_of_mem within
        refine ⟨before, other, after ++ [part], by simp, ⟨value, also⟩, ?_⟩
        rintro earlier found value again
        rw [List.mem_singleton.mp new] at again
        have declared : earlier ∈ before ++ other :: after := by
          rw [List.append_cons]
          exact List.mem_append_left after found
        exact present (cascade.mem_names_iff.mpr ⟨earlier, declared, value, again⟩)
  refine ⟨known.1, fun other => ?_, known.2⟩
  rw [mem_setDeclaration cascade.nodup, cascade.mem_iff]
  constructor
  · rintro (rfl | ⟨⟨before, own, after, rfl, also, none⟩, different⟩)
    · exact ⟨parts, part, [], rfl, declares, List.forall_mem_nil _⟩
    · refine ⟨before, own, after ++ [part], by simp, also, ?_⟩
      refine List.forall_mem_append.mpr ⟨none, List.forall_mem_singleton.mpr fun value again => ?_⟩
      have same := again.unique declares
      exact different (by rw [← same])
  · rintro ⟨before, own, after, same, also, none⟩
    rcases concat_eq_iff.mp same with ⟨rfl, rfl, rfl⟩ | ⟨inner, rfl, rfl⟩
    · exact Or.inl (also.unique declares)
    · obtain ⟨others, last⟩ := List.forall_mem_append.mp none
      refine Or.inr ⟨⟨before, own, inner, rfl, also, others⟩, fun equal => ?_⟩
      refine last part List.mem_cons_self declaration.2 ?_
      rw [equal]
      exact declares

/-- **What the parts are folded into.** -/
theorem cascade_fold (parts : List (List Char)) :
    Cascade parts ((parts.filterMap parseDeclaration?).foldl
      (fun declarations declaration => setDeclaration declaration declarations) []) := by
  induction parts using List.reverseRecOn with
  | nil => exact cascade_nil
  | append_singleton front last ih =>
    rw [List.filterMap_append, List.foldl_append]
    cases read : parseDeclaration? last with
    | none =>
      rw [List.filterMap_cons_none read]
      refine ih.skip fun declaration declares => ?_
      rw [parseDeclaration?_eq_some_iff.mpr declares] at read
      cases read
    | some declaration =>
      rw [List.filterMap_cons_some read]
      exact ih.declare (parseDeclaration?_eq_some_iff.mp read)

/-! ### Reading back -/

/-- Characters that have no meaning for a scan do not count, whatever follows them. -/
theorem positionsFrom_of_inert {separator : Char} {front : List Char}
    (inert : ∀ c ∈ front, isInert c = true ∧ c ≠ separator) (offset : Nat) (rest : List Char) :
    ∃ next, positionsFrom separator ⟨offset, .plain, []⟩ (front ++ rest) =
      positionsFrom separator ⟨next, .plain, []⟩ rest := by
  induction front generalizing offset with
  | nil => exact ⟨offset, rfl⟩
  | cons c front ih =>
    obtain ⟨⟨own, other⟩, later⟩ := List.forall_mem_cons.mp inert
    obtain ⟨next, passed⟩ := ih later (offset + c.utf8Size)
    refine ⟨next, ?_⟩
    have apart : Scan.separates separator ⟨offset, .plain, []⟩ c = false := by
      simp [Scan.separates, other]
    rw [List.cons_append, positionsFrom, Scan.step_inert own, ← passed]
    simp only [bind, Except.bind, apart, Bool.false_eq_true, if_false]
    cases positionsFrom separator _ (front ++ rest) <;> rfl

/-- Such characters may stand before a text in which no separator counts. -/
theorem closed_append_iff {separator : Char} {front rest : List Char}
    (inert : ∀ c ∈ front, isInert c = true ∧ c ≠ separator) :
    topLevelPositions separator (front ++ rest) = .ok [] ↔
      topLevelPositions separator rest = .ok [] := by
  obtain ⟨next, passed⟩ := positionsFrom_of_inert inert 0 rest
  have start : Scan.Alike .start ⟨next, .plain, []⟩ := Scan.alike_start next
  have back : Scan.Alike ⟨next, .plain, []⟩ .start := ⟨rfl, rfl⟩
  constructor
  · exact fun found => closed_of_alike back (passed.symm.trans found)
  · exact fun found => passed.trans (closed_of_alike start found)

/-- Where no separator counts in a text, none counts in what it starts with. -/
theorem closed_of_append {separator : Char} {state : Scan} {front rest : List Char}
    (found : positionsFrom separator state (front ++ rest) = .ok [])
    (sound : state.check front = .ok ()) : positionsFrom separator state front = .ok [] := by
  induction front generalizing state with
  | nil =>
    have done : state.finish = .ok () := sound
    rw [positionsFrom, done]
    rfl
  | cons c front ih =>
    rw [Scan.check_cons] at sound
    obtain ⟨next, stepped, sound⟩ := exists_of_bind_eq_ok sound
    obtain ⟨also, same, found⟩ := exists_of_bind_eq_ok found
    cases stepped.symm.trans same
    obtain ⟨positions, later, found⟩ := exists_of_bind_eq_ok found
    have none : state.separates separator c = false ∧ positions = [] := by
      cases apart : state.separates separator c with
      | true => rw [apart] at found; cases found
      | false => rw [apart] at found; exact ⟨rfl, Except.ok.inj found⟩
    rw [none.2] at later
    rw [positionsFrom, stepped]
    simp only [bind, Except.bind, ih later sound, none.1]
    rfl

/-- Where no separator counts in a text, none counts when it is trimmed. -/
theorem closed_trim {text : List Char} (found : topLevelPositions ';' text = .ok []) :
    topLevelPositions ';' (trim text) = .ok [] := by
  obtain ⟨front, back, split, before, behind⟩ := exists_trim text
  have inert : ∀ c ∈ front, isInert c = true ∧ c ≠ ';' := by
    intro c member
    refine ⟨inert_of_blank (before c member), ?_⟩
    rintro rfl
    exact absurd (before _ member) (by decide)
  have whole : topLevelPositions ';' (trim text ++ back) = .ok [] := by
    rw [split] at found
    exact (closed_append_iff inert).mp found
  exact closed_of_append whole (check_trim (check_of_positionsFrom found))

/-- A character of a name has no meaning for a scan. -/
theorem inert_of_isPropertyCharacter {c : Char} (character : isPropertyCharacter c = true) :
    isInert c = true ∧ c ≠ ';' := by
  have none : signs.any isPropertyCharacter = false := by decide
  refine ⟨inert_of_class none character, ?_⟩
  rintro rfl
  cases character

/-- What stands before the value of a declaration has no meaning for a scan. -/
theorem inert_of_name {left : List Char}
    (characters : ∀ c ∈ asciiLower (trim left), isPropertyCharacter c = true) :
    ∀ c ∈ left ++ [':'], isInert c = true ∧ c ≠ ';' := by
  have blank : ∀ {c : Char}, isBlank c = true → isInert c = true ∧ c ≠ ';' := by
    intro c blank
    refine ⟨inert_of_blank blank, ?_⟩
    rintro rfl
    exact absurd blank (by decide)
  have name : ∀ c ∈ trim left, isInert c = true ∧ c ≠ ';' := by
    intro c member
    refine inert_of_isPropertyCharacter ?_
    cases alpha : c.isAlpha with
    | true => simp [isPropertyCharacter, Char.isAlphanum, alpha]
    | false =>
      rw [← toLower_of_not_isAlpha alpha]
      exact characters _ (List.mem_map_of_mem member)
  obtain ⟨front, back, split, before, behind⟩ := exists_trim left
  rw [split]
  refine List.forall_mem_append.mpr ⟨List.forall_mem_append.mpr ⟨fun c member =>
    blank (before c member), List.forall_mem_append.mpr ⟨name, fun c member =>
      blank (behind c member)⟩⟩, List.forall_mem_singleton.mpr (by decide)⟩

/-- **The brackets and quotes of a value match** where those of its part do. -/
theorem Declares.closed (declares : Declares part declaration)
    (found : topLevelPositions ';' part = .ok []) :
    topLevelPositions ';' declaration.2.toList = .ok [] := by
  obtain ⟨left, right, rfl, _, name, value⟩ := declares.colon
  have inert := inert_of_name (name ▸ declares.characters)
  rw [List.append_cons] at found
  rw [value]
  exact closed_trim ((closed_append_iff inert).mp found)

/-- **The text of declarations**, as it stands in a style attribute. -/
def sheetText (declarations : List Declaration) : String :=
  " ".intercalate (declarations.map fun declaration =>
    Template.styleText declaration.1 declaration.2)

/-- A declaration before its semicolon. -/
def written (declaration : Declaration) : List Char :=
  declaration.1.toList ++ ':' :: declaration.2.toList

theorem toList_sheetText (declarations : List Declaration) :
    (sheetText declarations).toList =
      [' '].intercalate (declarations.map fun declaration => written declaration ++ [';']) := by
  rw [sheetText, String.toList_intercalate, List.map_map]
  refine congrArg _ (List.map_congr_left fun declaration _ => ?_)
  simp [Template.styleText, written, String.toList_append]

/-- What holds of the first code points that are characters of names holds of all of them. -/
theorem forall_isNameCharacter {motive : Char → Prop}
    (names : ∀ n < 123, isNameCharacter (Char.ofNat n) = true → motive (Char.ofNat n)) {c : Char}
    (character : isNameCharacter c = true) : motive c := by
  have bound : c.toNat < 123 := by
    have cases := character
    simp only [isNameCharacter, Bool.or_eq_true, beq_iff_eq] at cases
    rcases cases with ((lower | digit) | rfl) | rfl
    · have alpha : c.isAlpha = true := Bool.or_eq_true_iff.mpr (.inr lower)
      exact forall_isAlpha (motive := fun c => c.toNat < 123) (by decide) alpha
    · rw [Char.isDigit, Bool.and_eq_true, decide_eq_true_eq, decide_eq_true_eq,
        UInt32.le_iff_toNat_le] at digit
      exact Nat.lt_of_le_of_lt digit.2 (by decide)
    · decide
    · decide
  have own := names c.toNat bound
  rw [Char.ofNat_toNat] at own
  exact own character

/-- The characters of names are in lower case, are no white space and no colon. -/
theorem of_isNameCharacter {c : Char} (character : isNameCharacter c = true) :
    isPropertyCharacter c = true ∧ isBlank c = false ∧ c ≠ ':' ∧ c.toLower = c :=
  forall_isNameCharacter (motive := fun c => isPropertyCharacter c = true ∧ isBlank c = false ∧
    c ≠ ':' ∧ c.toLower = c) (by decide) character

namespace WellFormed

/-- A declaration that is written, perhaps after white space, is declared there. -/
theorem declares (whole : WellFormed declaration) {gap : List Char}
    (blank : ∀ c ∈ gap, isBlank c = true) : Declares (gap ++ written declaration) declaration := by
  have absent : ':' ∉ gap ++ declaration.1.toList := by
    rw [List.mem_append, not_or]
    exact ⟨fun inside => absurd (blank _ inside) (by decide),
      fun inside => (of_isNameCharacter (whole.characters _ inside)).2.2.1 rfl⟩
  have name : asciiLower (trim (gap ++ declaration.1.toList)) = declaration.1.toList := by
    have solid : Trimmed declaration.1.toList := trimmed_of_solid fun c inside =>
      (of_isNameCharacter (whole.characters c inside)).2.1
    rw [trim_blank_append blank, show trim declaration.1.toList = declaration.1.toList from solid]
    exact (List.map_congr_left fun c inside =>
      (of_isNameCharacter (whole.characters c inside)).2.2.2).trans (List.map_id' _)
  refine ⟨⟨gap ++ declaration.1.toList, declaration.2.toList, by simp [written], absent, name.symm,
    whole.trimmed.symm⟩, whole.named, fun c inside => ?_, whole.valued⟩
  exact (of_isNameCharacter (whole.characters c inside)).1

/-- No semicolon counts in a declaration if none counts in its value. -/
theorem closed_written (whole : WellFormed declaration)
    (closed : topLevelPositions ';' declaration.2.toList = .ok []) :
    topLevelPositions ';' (written declaration) = .ok [] := by
  have inert : ∀ c ∈ declaration.1.toList ++ [':'], isInert c = true ∧ c ≠ ';' :=
    List.forall_mem_append.mpr ⟨fun c inside => inert_of_isPropertyCharacter
      (of_isNameCharacter (whole.characters c inside)).1, List.forall_mem_singleton.mpr (by decide)⟩
  rw [written, List.append_cons]
  exact (closed_append_iff inert).mpr closed

end WellFormed

/-- **The text of declarations is taken apart** into the declarations and an empty part. -/
theorem splitFrom_sheet {first : Declaration} {rest : List Declaration}
    (closed : ∀ declaration ∈ first :: rest, topLevelPositions ';' (written declaration) = .ok [])
    (offset : Nat) :
    splitFrom ';' ⟨offset, .plain, []⟩
        ([' '].intercalate ((first :: rest).map fun declaration => written declaration ++ [';'])) =
      .ok (written first :: (rest.map fun declaration => ' ' :: written declaration) ++ [[]]) := by
  induction rest generalizing first offset with
  | nil =>
    obtain ⟨own, _⟩ := List.forall_mem_cons.mp closed
    have ends : ∀ offset, splitFrom ';' ⟨offset, .plain, []⟩ [';'] = .ok [[], []] := fun _ => rfl
    have whole := splitFrom_append own ends
    rw [List.append_nil] at whole
    rw [List.map_singleton, List.intercalate_singleton]
    exact splitFrom_of_alike (Scan.alike_start offset) whole
  | cons next rest ih =>
    obtain ⟨own, later⟩ := List.forall_mem_cons.mp closed
    have ends : ∀ offset, splitFrom ';' ⟨offset, .plain, []⟩ (';' :: ' ' :: [' '].intercalate
        ((next :: rest).map fun declaration => written declaration ++ [';'])) =
          .ok ([] :: (' ' :: written next) ::
            ((rest.map fun declaration => ' ' :: written declaration) ++ [[]])) := by
      intro offset
      have spaced : splitFrom ';' ⟨offset + 1, .plain, []⟩ (' ' :: [' '].intercalate
          ((next :: rest).map fun declaration => written declaration ++ [';'])) =
            .ok ((' ' :: written next) ::
              ((rest.map fun declaration => ' ' :: written declaration) ++ [[]])) :=
        splitFrom_bare (by decide) (by decide) (by decide) (by decide) (ih later)
      rw [splitFrom_cons rfl spaced]
      rfl
    have whole := splitFrom_append own ends
    rw [List.append_nil] at whole
    refine Eq.trans (congrArg _ ?_) (splitFrom_of_alike (Scan.alike_start offset) whole)
    simp only [List.map_cons, List.intercalate_cons_cons, List.append_assoc, List.cons_append,
      List.nil_append]

/-- Properties that are new and distinct are set one after the other. -/
theorem foldl_setDeclaration {known : List Declaration}
    (nodup : ((known ++ declarations).map Prod.fst).Nodup) :
    declarations.foldl (fun declarations declaration => setDeclaration declaration declarations)
      known = known ++ declarations := by
  induction declarations generalizing known with
  | nil => simp
  | cons first rest ih =>
    rw [List.append_cons] at nodup
    have new : first.1 ∉ known.map Prod.fst := by
      have own := (List.nodup_append.mp (List.map_append ▸ nodup)).1
      rw [List.map_append] at own
      exact fun inside => (List.nodup_append.mp own).2.2 _ inside _ (by simp) rfl
    rw [List.foldl_cons, setDeclaration_of_not_mem new, ih nodup, ← List.append_cons]

/-- **Declarations are read back** from the text they are written as. -/
theorem parseDeclarations_sheetText (whole : ∀ declaration ∈ declarations, WellFormed declaration)
    (closed : ∀ declaration ∈ declarations,
      topLevelPositions ';' declaration.2.toList = .ok [])
    (nodup : (declarations.map Prod.fst).Nodup) :
    parseDeclarations (sheetText declarations) = declarations := by
  cases declarations with
  | nil => rfl
  | cons first rest =>
    have apart : splitDeclarations (sheetText (first :: rest)).toList =
        written first :: (rest.map fun declaration => ' ' :: written declaration) ++ [[]] := by
      have split := splitFrom_sheet (fun declaration member =>
        (whole declaration member).closed_written (closed declaration member)) 0
      rw [splitDeclarations, toList_sheetText, splitTopLevel, show Scan.start = ⟨0, .plain, []⟩ from
        rfl, split]
    obtain ⟨own, others⟩ := List.forall_mem_cons.mp whole
    have space : ∀ c ∈ [' '], isBlank c = true := List.forall_mem_singleton.mpr (by decide)
    have head : parseDeclaration? (written first) = some first :=
      parseDeclaration?_eq_some_iff.mpr (own.declares (List.forall_mem_nil _))
    have tail : (rest.map fun declaration => ' ' :: written declaration).filterMap
        parseDeclaration? = rest := by
      rw [List.filterMap_map]
      refine (List.filterMap_congr fun declaration member => ?_).trans List.filterMap_some
      exact parseDeclaration?_eq_some_iff.mpr ((others declaration member).declares space)
    rw [parseDeclarations, apart, List.cons_append, List.filterMap_cons_some head,
      List.filterMap_append, tail,
      show [([] : List Char)].filterMap parseDeclaration? = [] from rfl, List.append_nil]
    have fresh : ((([] : List Declaration) ++ (first :: rest)).map Prod.fst).Nodup := nodup
    exact foldl_setDeclaration fresh

/-! ### Styles -/

/-- **The declarations of a style, exactly.** They are what the parts of its text come to: each
property once, where it is declared first, with the value it is declared with last. Names are in
lower case, and values are trimmed and not empty. Where the brackets and quotes of the text match,
the declarations are read back from the text they are written as. -/
theorem parseDeclarations_exact (style : String) :
    (∃ parts, Parts style.toList parts ∧ Cascade parts (parseDeclarations style)) ∧
    (∀ declaration ∈ parseDeclarations style, WellFormed declaration) ∧
    ∀ positions, topLevelPositions ';' style.toList = .ok positions →
      parseDeclarations (sheetText (parseDeclarations style)) = parseDeclarations style := by
  have parts := parts_splitDeclarations style.toList
  have cascade : Cascade (splitDeclarations style.toList) (parseDeclarations style) :=
    cascade_fold (splitDeclarations style.toList)
  have declared : ∀ declaration ∈ parseDeclarations style,
      ∃ part ∈ splitDeclarations style.toList, Declares part declaration := by
    intro declaration member
    obtain ⟨before, part, after, split, declares, _⟩ := (cascade.mem_iff declaration).mp member
    exact ⟨part, by simp [split], declares⟩
  have written : ∀ declaration ∈ parseDeclarations style, WellFormed declaration := by
    intro declaration member
    obtain ⟨part, _, declares⟩ := declared declaration member
    exact declares.wellFormed
  refine ⟨⟨_, parts, cascade⟩, written, fun positions found => ?_⟩
  refine parseDeclarations_sheetText written (fun declaration member => ?_) cascade.nodup
  obtain ⟨part, inside, declares⟩ := declared declaration member
  exact declares.closed (parts.matched positions found part inside)

/-- A semicolon in quotes and in brackets belongs to a value, and a property that is declared again
keeps its place. -/
theorem parseDeclarations_exact_repeated :
    parseDeclarations "A: url(;) ; junk; b:'x;y';a :c" = [("a", "c"), ("b", "'x;y'")] ∧
      parseDeclarations (sheetText [("a", "c"), ("b", "'x;y'")]) =
        [("a", "c"), ("b", "'x;y'")] := by
  have read : parseDeclarations "A: url(;) ; junk; b:'x;y';a :c" =
      [("a", "c"), ("b", "'x;y'")] := by
    decide +kernel
  obtain ⟨_, _, again⟩ := parseDeclarations_exact "A: url(;) ; junk; b:'x;y';a :c"
  rw [read] at again
  exact ⟨read, again _ rfl⟩

end DataBind.Style
