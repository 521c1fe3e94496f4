/-
**The comments that mark blocks.**

A marker comment is read after trimming. One that opens a block has a mark, spaces, the name of a
kind, spaces, a colon and a value that is more than white space; one that closes a block has a slash
and a mark. All other comments say nothing. The option against conflicts takes one of the two marks
away.

* `marks`: the marks by the options;
* `Opening`, `Closing`: how marker comments are written;
* `parseOpening?_eq_some_iff`: what is read behind a mark;
* `parseDirective_eq_opening_iff`, `parseDirective_eq_closing_iff`: which comments open and close a
  block, and with which binding;
* `parseDirective_written`: a comment is read as the binding it is written from;
* `parseDirective_exact`: all of this together.
-/

import DataBind.Binding.Directive
import DataBind.Proofs.Text.Cutting
import DataBind.Proofs.Text.Trimming

namespace DataBind.Binding

open DataBind.Text

/-- The marks of comments, by the options. -/
def marks (config : Config) : List (List Char) :=
  if config.noConflict then [['h', 'z']] else [['k', 'o'], ['h', 'z']]

/-- The names of the kinds that comments can have. -/
def commentKinds : List String :=
  ["if", "ifnot", "foreach", "with", "text", "html"]

/-- What stands between a mark and the value: spaces, a name, spaces and a colon. -/
def lead (before after : Nat) (name : String) : List Char :=
  List.replicate (before + 1) ' ' ++ (name.toList ++ (List.replicate after ' ' ++ [':']))

/-- **A comment that opens a block**, up to the colon and the text behind it. -/
def Opening (config : Config) (kind : Kind) (value text : List Char) : Prop :=
  kind.name ∈ commentKinds ∧
    ∃ mark ∈ marks config, ∃ before after, text = mark ++ (lead before after kind.name ++ value)

/-- **A comment that closes a block.** -/
def Closing (config : Config) (text : List Char) : Prop :=
  ∃ mark ∈ marks config, text = '/' :: mark

variable {config : Config} {kind : Kind}

theorem isContainerless_iff : kind.isContainerless = true ↔ kind.name ∈ commentKinds := by
  cases kind <;> decide

theorem mem_marks {mark : List Char} :
    mark ∈ marks config ↔ mark = ['h', 'z'] ∨ mark = ['k', 'o'] ∧ config.noConflict = false := by
  unfold marks
  cases config.noConflict <;> simp [or_comm]

/-! ### Behind the mark -/

theorem takeWhile_space (text : List Char) :
    ∃ n, text.takeWhile (· == ' ') = List.replicate n ' ' := by
  refine ⟨_, List.eq_replicate_of_mem fun c member => ?_⟩
  simpa using List.mem_takeWhile_imp member

/-- Only spaces are trimmed from the end of a name. -/
theorem exists_trimSpaces (text : List Char) :
    ∃ n, text = trimSpaces text ++ List.replicate n ' ' := by
  obtain ⟨n, spaces⟩ := takeWhile_space text.reverse
  refine ⟨n, ?_⟩
  rw [trimSpaces, ← List.reverse_replicate, ← spaces, ← List.reverse_append,
    List.takeWhile_append_dropWhile, List.reverse_reverse]

/-- A kind is found under its name only. -/
theorem name_of_ofName? {name : String} (found : Kind.ofName? name = some kind) :
    kind.name = name := by
  have same := List.find?_some found
  simpa using same

/-- The name of a kind starts and ends with other characters than spaces, and has no colon. -/
theorem name_characters (kind : Kind) :
    kind.name.toList ≠ [] ∧ (∀ c ∈ kind.name.toList, (c == ' ') = false) ∧
      ':' ∉ kind.name.toList := by
  have solid : kind.name.toList.all (fun c => !(c == ' ')) = true := by
    cases kind <;> decide
  refine ⟨by cases kind <;> decide, fun c member => ?_, by cases kind <;> decide⟩
  simpa using List.all_eq_true.mp solid c member

theorem trimSpaces_name (n : Nat) :
    trimSpaces (kind.name.toList ++ List.replicate n ' ') = kind.name.toList := by
  have solid : ∀ c ∈ kind.name.toList.reverse, (c == ' ') = false :=
    fun c member => (name_characters kind).2.1 c (List.mem_reverse.mp member)
  rw [trimSpaces, List.reverse_append, List.reverse_replicate,
    dropWhile_append_stop (by simp) fun c member => solid c (List.mem_of_mem_head? member),
    List.reverse_reverse]

/-- **What is read behind a mark.** -/
theorem parseOpening?_eq_some_iff {text : List Char} {source : String} :
    parseOpening? text = some ⟨kind, source⟩ ↔ ∃ before after value,
      text = lead before after kind.name ++ value ∧ kind.name ∈ commentKinds ∧
        trim value ≠ [] ∧ source = String.ofList (trim value) := by
  constructor
  · intro read
    unfold parseOpening? at read
    split at read
    · rename_i others
      obtain ⟨⟨name, value⟩, cut, read⟩ := Option.bind_eq_some_iff.mp read
      obtain ⟨found, named, read⟩ := Option.bind_eq_some_iff.mp read
      simp only at read
      split at read
      · rename_i allowed
        cases read
        simp only [Bool.and_eq_true, Bool.not_eq_true', List.isEmpty_eq_false_iff] at allowed
        obtain ⟨before, spaces⟩ := takeWhile_space others
        obtain ⟨after, whole⟩ := exists_trimSpaces name
        have behind : others.dropWhile (· == ' ') = name ++ ':' :: value := cutAt_eq_some cut
        refine ⟨before, after, value, ?_, isContainerless_iff.mp allowed.1, allowed.2, rfl⟩
        have own : trimSpaces name = kind.name.toList := by
          rw [name_of_ofName? named, String.toList_ofList]
        rw [← List.takeWhile_append_dropWhile (p := (· == ' ')) (l := others), spaces, behind,
          whole, own, lead, List.replicate_succ]
        simp only [List.cons_append, List.append_assoc, List.nil_append]
      · cases read
    · cases read
  · rintro ⟨before, after, value, rfl, allowed, solid, rfl⟩
    obtain ⟨starts, plain, colon⟩ := name_characters kind
    have spaces : (lead before after kind.name ++ value).dropWhile (· == ' ') =
        (kind.name.toList ++ List.replicate after ' ') ++ ':' :: value := by
      rw [lead, List.append_assoc, dropWhile_append_stop (by simp)]
      · simp only [List.append_assoc, List.cons_append, List.nil_append]
      · intro c first
        rw [List.append_assoc, List.head?_append_of_ne_nil _ starts] at first
        exact plain c (List.mem_of_mem_head? first)
    have cut : cutAt ':' ((lead before after kind.name ++ value).dropWhile (· == ' ')) =
        some (kind.name.toList ++ List.replicate after ' ', value) := by
      refine cutAt_eq_some_iff.mpr ⟨spaces, fun member => ?_⟩
      rcases List.mem_append.mp member with inside | space
      · exact colon inside
      · cases List.eq_of_mem_replicate space
    have form : lead before after kind.name ++ value =
        ' ' :: (List.replicate before ' ' ++ (kind.name.toList ++
          (List.replicate after ' ' ++ ':' :: value))) := by
      rw [lead, List.replicate_succ]
      simp only [List.cons_append, List.append_assoc, List.nil_append]
    have named : Kind.ofName? (String.ofList (trimSpaces
        (kind.name.toList ++ List.replicate after ' '))) = some kind := by
      rw [trimSpaces_name, String.ofList_toList, Kind.ofName?_name]
    rw [form] at cut ⊢
    rw [parseOpening?, cut]
    simp only [Option.bind_some, named]
    rw [if_pos (by simp [isContainerless_iff.mpr allowed, solid])]

/-! ### Marks -/

/-- What follows one of the marks. -/
theorem afterMark?_eq_some_iff {text rest : List Char} :
    afterMark? text = some rest ↔ text = ['k', 'o'] ++ rest ∨ text = ['h', 'z'] ++ rest := by
  have first : afterLead? ['k', 'o'] text = some rest ↔ text = ['k', 'o'] ++ rest :=
    afterLead?_eq_some
  unfold afterMark?
  split
  · rename_i other found
    rw [← first, found]
    rw [afterLead?_eq_some] at found
    subst found
    simp
  · rename_i missing
    rw [← first, missing, afterLead?_eq_some]
    simp

/-- The comments that the option against conflicts excludes. -/
theorem isConflicting_iff {text : List Char} :
    isConflicting text = true ↔
      (∃ rest, text = 'k' :: 'o' :: ' ' :: rest) ∨ text = ['/', 'k', 'o'] := by
  rw [isConflicting, Bool.or_eq_true, beq_iff_eq, Option.isSome_iff_exists]
  exact or_congr_left (exists_congr fun rest => afterLead?_eq_some)

/-- **Which comments open a block**, and with which binding. -/
theorem parseDirective_eq_opening_iff {comment : String} {source : String} :
    parseDirective comment config = some (.opening ⟨kind, source⟩) ↔
      ∃ value, Opening config kind value (trim comment.toList) ∧ trim value ≠ [] ∧
        source = String.ofList (trim value) := by
  generalize text : trim comment.toList = characters
  -- a comment with a mark and a lead is none of the comments that are looked for first
  have read : ∀ {before after : Nat} {value : List Char},
      characters = ['h', 'z'] ++ (lead before after kind.name ++ value) ∨
        characters = ['k', 'o'] ++ (lead before after kind.name ++ value) ∧
          config.noConflict = false →
      parseDirective comment config =
        (parseOpening? (lead before after kind.name ++ value)).map .opening := by
    intro before after value form
    have free : ¬ (config.noConflict && isConflicting characters) = true := by
      rw [Bool.and_eq_true, isConflicting_iff]
      rcases form with rfl | ⟨-, free⟩
      · rintro ⟨_, ⟨_, same⟩ | same⟩ <;> cases same
      · rw [free]
        exact fun both => Bool.false_ne_true both.1
    have stays : ¬ (characters = ['/', 'k', 'o'] ∨ characters = ['/', 'h', 'z']) := by
      rcases form with rfl | ⟨rfl, -⟩ <;> rintro (same | same) <;> cases same
    have mark : afterMark? characters = some (lead before after kind.name ++ value) :=
      afterMark?_eq_some_iff.mpr (form.symm.imp_left And.left)
    rw [parseDirective]
    simp only [text, if_neg free, if_neg stays, mark, Option.bind_some]
  constructor
  · intro said
    have word := said
    rw [parseDirective] at word
    simp only [text] at word
    split at word
    · cases word
    · rename_i free
      split at word
      · cases word
      · obtain ⟨binding, opened, same⟩ := Option.map_eq_some_iff.mp word
        cases same
        obtain ⟨rest, marked, opened⟩ := Option.bind_eq_some_iff.mp opened
        obtain ⟨before, after, value, rfl, allowed, solid, named⟩ :=
          parseOpening?_eq_some_iff.mp opened
        refine ⟨value, ⟨allowed, ?_⟩, solid, named⟩
        rcases afterMark?_eq_some_iff.mp marked with rfl | rfl
        · refine ⟨_, mem_marks.mpr (Or.inr ⟨rfl, ?_⟩), before, after, rfl⟩
          cases option : config.noConflict with
          | false => rfl
          | true =>
            refine absurd ?_ free
            rw [option, Bool.true_and]
            exact isConflicting_iff.mpr (Or.inl ⟨_, rfl⟩)
        · exact ⟨_, mem_marks.mpr (Or.inl rfl), before, after, rfl⟩
  · rintro ⟨value, ⟨allowed, mark, known, before, after, rfl⟩, solid, named⟩
    have form := mem_marks.mp known
    have text := form.imp (congrArg (· ++ (lead before after kind.name ++ value)))
      (And.imp_left (congrArg (· ++ (lead before after kind.name ++ value))))
    have word := read text
    rw [word, parseOpening?_eq_some_iff.mpr ⟨before, after, value, rfl, allowed, solid, named⟩]
    rfl

/-- **Which comments close a block.** -/
theorem parseDirective_eq_closing_iff {comment : String} :
    parseDirective comment config = some .closing ↔ Closing config (trim comment.toList) := by
  rw [parseDirective_close]
  constructor
  · rintro (text | ⟨text, free⟩)
    · exact ⟨_, mem_marks.mpr (Or.inl rfl), text⟩
    · exact ⟨_, mem_marks.mpr (Or.inr ⟨rfl, free⟩), text⟩
  · rintro ⟨mark, known, text⟩
    rcases mem_marks.mp known with rfl | ⟨rfl, free⟩
    · exact Or.inl text
    · exact Or.inr ⟨text, free⟩

/-! ### Comments as they are written -/

/-- **A comment is read as the binding it is written from**, whatever stands in the value. -/
theorem parseDirective_written (allowed : kind.name ∈ commentKinds) {mark : List Char}
    (known : mark ∈ marks config) (before after : Nat) {source : String}
    (whole : Trimmed source.toList) (solid : source ≠ "") {front gap back : List Char}
    (blank : ∀ c ∈ front ++ (gap ++ back), isBlank c = true) :
    parseDirective (String.ofList (front ++
      (mark ++ (lead before after kind.name ++ (gap ++ source.toList))) ++ back)) config =
        some (.opening ⟨kind, source⟩) := by
  obtain ⟨outside, inner⟩ := List.forall_mem_append.mp blank
  obtain ⟨inside, behind⟩ := List.forall_mem_append.mp inner
  have nonempty : source.toList ≠ [] := mt String.toList_eq_nil_iff.mp solid
  have value : trim (gap ++ source.toList) = source.toList := by
    rw [trim_blank_append inside]
    exact whole
  have text : trim (front ++ (mark ++ (lead before after kind.name ++
      (gap ++ source.toList))) ++ back) =
        mark ++ (lead before after kind.name ++ (gap ++ source.toList)) := by
    rw [trim_append_blank behind, trim_blank_append outside]
    have ends : ∀ {c : Char} (others : List Char), isBlank c = false →
        trim (c :: others ++ source.toList) = c :: others ++ source.toList :=
      fun others first => trim_append first whole nonempty others
    rcases mem_marks.mp known with rfl | ⟨rfl, -⟩
    · have solid : isBlank 'h' = false := by decide
      simpa using ends ('z' :: (lead before after kind.name ++ gap)) solid
    · have solid : isBlank 'k' = false := by decide
      simpa using ends ('o' :: (lead before after kind.name ++ gap)) solid
  rw [parseDirective_eq_opening_iff, String.toList_ofList, text]
  refine ⟨gap ++ source.toList, ⟨allowed, mark, known, before, after, rfl⟩, ?_, ?_⟩
  · rw [value]
    exact nonempty
  · rw [value, String.ofList_toList]

/-- **The comments that say something, exactly.** A comment opens a block with a binding just if it
is written so, closes one just if it is written so, and says nothing otherwise. What is written from
a binding, with any spaces and white space where they may stand, is read as that binding. -/
theorem parseDirective_exact (config : Config) :
    (∀ comment : String,
      (∀ kind source, parseDirective comment config = some (.opening ⟨kind, source⟩) ↔
        ∃ value, Opening config kind value (trim comment.toList) ∧ trim value ≠ [] ∧
          source = String.ofList (trim value)) ∧
      (parseDirective comment config = some .closing ↔ Closing config (trim comment.toList)) ∧
      (parseDirective comment config = none ↔ ¬ Closing config (trim comment.toList) ∧
        ∀ kind value, Opening config kind value (trim comment.toList) → trim value = [])) ∧
    ∀ (kind : Kind) (mark : List Char) (before after : Nat) (source : String)
      (front gap back : List Char), kind.name ∈ commentKinds → mark ∈ marks config →
      Trimmed source.toList → source ≠ "" → (∀ c ∈ front ++ (gap ++ back), isBlank c = true) →
      parseDirective (String.ofList (front ++
        (mark ++ (lead before after kind.name ++ (gap ++ source.toList))) ++ back)) config =
          some (.opening ⟨kind, source⟩) := by
  refine ⟨fun comment => ⟨fun _ _ => parseDirective_eq_opening_iff,
    parseDirective_eq_closing_iff, ?_⟩,
    fun kind mark before after source front gap back allowed known whole solid blank =>
      parseDirective_written allowed known before after whole solid blank⟩
  constructor
  · intro silent
    refine ⟨fun closes => ?_, fun kind value opens => ?_⟩
    · have said := parseDirective_eq_closing_iff.mpr closes
      rw [silent] at said
      cases said
    · by_contra solid
      have said := parseDirective_eq_opening_iff.mpr ⟨value, opens, solid, rfl⟩
      rw [silent] at said
      cases said
  · rintro ⟨stays, empty⟩
    cases said : parseDirective comment config with
    | none => rfl
    | some directive =>
      cases directive with
      | closing => exact absurd (parseDirective_eq_closing_iff.mp said) stays
      | opening binding =>
        obtain ⟨value, opens, solid, _⟩ := parseDirective_eq_opening_iff.mp said
        exact absurd (empty binding.kind value opens) solid

/-- A value with a colon and the words of the marks is read whole, also where only one of the marks
counts; a comment with the other mark says nothing there. -/
theorem parseDirective_exact_marks :
    parseDirective "\t hz  foreach : ko if: a, hz text: b\n" ⟨true, false⟩ =
        some (.opening ⟨.forEach, "ko if: a, hz text: b"⟩) ∧
      parseDirective "ko if: a" ⟨true, false⟩ = none := by
  obtain ⟨said, written⟩ := parseDirective_exact ⟨true, false⟩
  refine ⟨?_, ?_⟩
  · exact written .forEach ['h', 'z'] 1 1 "ko if: a, hz text: b" ['\t', ' '] [' '] ['\n']
      (by decide) (by decide) (by decide) (by decide) (List.all_eq_true.mp (by decide))
  · refine (said "ko if: a").2.2.mpr ⟨?_, ?_⟩
    · rintro ⟨mark, known, same⟩
      rcases mem_marks.mp known with rfl | ⟨_, wrong⟩
      · revert same
        decide
      · cases wrong
    · rintro kind value ⟨_, mark, known, before, after, same⟩
      rcases mem_marks.mp known with rfl | ⟨_, wrong⟩
      · have text : trim "ko if: a".toList = "ko if: a".toList := by decide
        rw [text] at same
        cases (List.cons.inj same).1
      · cases wrong

end DataBind.Binding
