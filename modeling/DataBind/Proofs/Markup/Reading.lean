/-
**How written markup is read.**

A text is read piece by piece: what a piece leaves in the structure of the markup does not depend
on what stands before or after it. Text leaves nothing, a construct leaves its mark.

* `scan_other`, `scan_text`, `scan_error`, `scan_construct`: how a scan goes on at a character;
* `Mark`: what is left of an event without text, attribute values and raw content;
* `Reads`: the marks that a piece of markup leaves wherever it stands, which `Reads.append` joins;
* `ReadsNames`: the names of the attributes that a piece of a start tag adds;
* `readsNames_attributeText`: a written attribute adds its name, whatever its value is;
* `Constructs`: the text of one construct, which is read as one event wherever it stands;
* `constructs_commentText`, `constructs_declarationText`, `constructs_startTag`,
  `constructs_voidTag`, `constructs_tagEnd`, `constructs_rawElement`: what is written for a node is
  a construct;
* `reads_startTag`, `reads_voidTag`, `reads_rawElement`: the marks of tags with attributes.
-/

import DataBind.Markup.Parse
import DataBind.Proofs.Markup.EndTag
import DataBind.Proofs.Text.Trimming
import Mathlib.Tactic.SplitIfs

namespace DataBind.Markup

open DataBind.Text

/-! ### Scanning -/

section Scan

variable (finish : Nat) (pending : List Char) {c : Char} {rest after : List Char}

/-- A character other than `<` is text. -/
theorem scan_other (other : c ≠ '<') :
    scan finish pending (c :: rest) = scan finish (c :: pending) rest := by
  rw [scan, if_neg other]

/-- So is a `<` that starts no construct. -/
theorem scan_text (none : readConstruct rest = none) :
    scan finish pending ('<' :: rest) = scan finish ('<' :: pending) rest := by
  rw [scan, if_pos rfl]
  split
  · rfl
  · rename_i found
    rw [none] at found
    cases found
  · rename_i found
    rw [none] at found
    cases found

/-- A construct that does not end ends reading. -/
theorem scan_error {cause : Unterminated} (failed : readConstruct rest = some (.error cause)) :
    scan finish pending ('<' :: rest) =
      (pendingText pending, some (cause.at (finish - byteLength ('<' :: rest)))) := by
  rw [scan, if_pos rfl]
  split
  · rename_i found
    rw [failed] at found
    cases found
  · rename_i found
    rw [failed] at found
    cases found
    rfl
  · rename_i found
    rw [failed] at found
    cases found

/-- A construct that ends comes behind the text before it. -/
theorem scan_construct {event : Event} (read : readConstruct rest = some (.ok (event, after))) :
    scan finish pending ('<' :: rest) =
      (pendingText pending ++ event :: (scan finish [] after).1, (scan finish [] after).2) := by
  rw [scan, if_pos rfl]
  split
  · rename_i found
    rw [read] at found
    cases found
  · rename_i found
    rw [read] at found
    cases found
  · rename_i found
    rw [read] at found
    cases found
    rfl

end Scan

/-! ### Marks -/

/-- What an event leaves in the structure of markup. -/
inductive Mark where
  | comment (text : String)
  | declaration (text : String)
  | raw (tag : String) (names : List String)
  | opening (tag : String) (names : List String) (selfClosing : Bool)
  | closing (tag : String)

/-- The mark of an event; text has none. -/
def Event.mark? : Event → Option Mark
  | .text _ => none
  | .comment inner => some (.comment inner)
  | .declaration inner => some (.declaration inner)
  | .raw tag attributes _ => some (.raw tag (attributes.map Prod.fst))
  | .opening tag attributes selfClosing =>
    some (.opening tag (attributes.map Prod.fst) selfClosing)
  | .closing tag => some (.closing tag)

/-- The marks of what a scan has found. -/
def marked (found : List Event × Option MarkupError) : List Mark × Option MarkupError :=
  (found.1.filterMap Event.mark?, found.2)

/-- More marks before those of what a scan has found. -/
def before (marks : List Mark) (found : List Mark × Option MarkupError) :
    List Mark × Option MarkupError :=
  (marks ++ found.1, found.2)

theorem before_before (first second : List Mark) (found : List Mark × Option MarkupError) :
    before first (before second found) = before (first ++ second) found := by
  simp only [before, List.append_assoc]

theorem filterMap_pendingText (pending : List Char) :
    (pendingText pending).filterMap Event.mark? = [] := by
  unfold pendingText
  split <;> simp [Event.mark?]

/-- **Pending text leaves no mark.** -/
theorem marked_scan (finish : Nat) (pending text : List Char) :
    marked (scan finish pending text) = marked (scan finish [] text) := by
  induction length : text.length using Nat.strongRecOn generalizing pending text
  rename_i bound ih
  cases text with
  | nil => simp only [scan_nil, marked, filterMap_pendingText]
  | cons c rest =>
    have shorter : rest.length < bound := by
      rw [← length]
      exact Nat.lt_succ_self _
    rw [scan, scan]
    by_cases angle : c = '<'
    · rw [if_pos angle, if_pos angle]
      split
      · rw [ih _ shorter (c :: pending) rest rfl, ih _ shorter [c] rest rfl]
      · simp only [marked, filterMap_pendingText]
      · simp only [marked, List.filterMap_append, filterMap_pendingText]
    · rw [if_neg angle, if_neg angle]
      rw [ih _ shorter (c :: pending) rest rfl, ih _ shorter [c] rest rfl]

/-! ### Pieces of markup -/

/-- **A piece of markup leaves its marks wherever it stands.** -/
def Reads (text : String) (marks : List Mark) : Prop :=
  ∀ finish rest, marked (scan finish [] (text.toList ++ rest)) =
    before marks (marked (scan finish [] rest))

theorem Reads.empty : Reads "" [] :=
  fun _ _ => rfl

theorem Reads.append {first second : String} {marks others : List Mark}
    (head : Reads first marks) (tail : Reads second others) :
    Reads (first ++ second) (marks ++ others) := by
  intro finish rest
  rw [String.toList_append, List.append_assoc, head, tail, before_before]

/-- A text that is read as a whole leaves its marks and no error. -/
theorem Reads.marked_events {text : String} {marks : List Mark} (reads : Reads text marks) :
    marked (events text) = (marks, none) := by
  have whole := reads (byteLength text.toList) []
  rw [List.append_nil, scan_nil] at whole
  rw [events, whole]
  simp only [before, marked, filterMap_pendingText, List.append_nil]

/-- Text without an opening angle bracket leaves no mark. -/
theorem reads_of_not_mem {text : String} (plain : '<' ∉ text.toList) : Reads text [] := by
  intro finish rest
  generalize text.toList = characters at plain
  induction characters with
  | nil => rfl
  | cons c others ih =>
    rw [List.mem_cons, not_or] at plain
    rw [List.cons_append, scan_other finish [] (Ne.symm plain.1), marked_scan]
    exact ih plain.2

/-- **A text is one construct**: wherever it stands, it is read as one event. -/
def Constructs (text : String) (event : Event) : Prop :=
  ∃ inner, text = "<" ++ inner ∧
    ∀ rest, readConstruct (inner.toList ++ rest) = some (.ok (event, rest))

/-- A construct ends the text before it, and its event comes next. -/
theorem Constructs.scan_eq {text : String} {event : Event} (constructs : Constructs text event)
    (finish : Nat) (pending rest : List Char) :
    scan finish pending (text.toList ++ rest) =
      (pendingText pending ++ event :: (scan finish [] rest).1, (scan finish [] rest).2) := by
  obtain ⟨inner, rfl, construct⟩ := constructs
  rw [String.toList_append, List.append_assoc]
  exact scan_construct finish pending (construct rest)

/-- A construct leaves its mark. -/
theorem Constructs.reads {text : String} {event : Event} (constructs : Constructs text event) :
    Reads text event.mark?.toList := by
  intro finish rest
  rw [constructs.scan_eq]
  simp only [marked, before, pendingText, List.isEmpty_nil, if_true, List.nil_append,
    List.filterMap_cons]
  cases event.mark? <;> rfl

/-! ### Attributes -/

/-- Whether an attribute of a name is read again when it is written: the name has no character that
ends names, or is a stray equals sign. -/
def ReadableName (name : String) : Prop :=
  name = "=" ∨ name ≠ "" ∧ ∀ c ∈ name.toList, isAttributeNameCharacter c = true

/-- The names of attributes of which the first of each name counts. -/
def addNames (known names : List String) : List String :=
  names.foldl (fun known name => if name ∈ known then known else known ++ [name]) known

/-- **A piece of a start tag adds its names wherever it stands.** -/
structure ReadsNames (text : String) (names : List String) : Prop where
  /-- The name before the piece ends there. -/
  separated : ∀ c ∈ text.toList.head?, c = ' '
  reads : ∀ known, ∃ found, found.map Prod.fst = addNames (known.map Prod.fst) names ∧
    ∀ rest, readTag known (text.toList ++ rest) = readTag found rest

theorem ReadsNames.empty : ReadsNames "" [] where
  separated _ found := by cases found
  reads known := ⟨known, rfl, fun _ => rfl⟩

theorem ReadsNames.append {first second : String} {names others : List String}
    (head : ReadsNames first names) (tail : ReadsNames second others) :
    ReadsNames (first ++ second) (names ++ others) where
  separated c found := by
    rw [String.toList_append] at found
    cases start : first.toList with
    | nil =>
      rw [start] at found
      exact tail.separated c found
    | cons d rest =>
      rw [start] at found
      exact head.separated c (by rw [start]; exact found)
  reads known := by
    obtain ⟨found, same, read⟩ := head.reads known
    obtain ⟨final, all, readAll⟩ := tail.reads found
    refine ⟨final, ?_, fun rest => ?_⟩
    · rw [all, same, addNames, addNames, addNames, List.foldl_append]
    · rw [String.toList_append, List.append_assoc, read, readAll]

/-- A value in quotes has no quote inside. -/
theorem quote_not_mem_escapeInAttribute (c : Char) : '"' ∉ escapeInAttribute c := by
  have digits : ∀ n < 0x20, '"' ∉ hexDigits n := by decide
  unfold escapeInAttribute
  split
  · decide
  · rename_i quote
    iterate 6
      split
      · decide
    split
    · rename_i control
      rw [List.cons_append, List.cons_append, List.mem_cons, List.mem_cons, List.mem_append,
        List.mem_replicate]
      rintro (wrong | wrong | ⟨_, wrong⟩ | wrong)
      · cases wrong
      · cases wrong
      · cases wrong
      · exact digits c.toNat control wrong
    · unfold escapeCharacter
      split
      · decide
      · split
        · decide
        · rw [List.mem_singleton]
          exact Ne.symm quote

theorem readValue?_quotedValue (value : String) (rest : List Char) :
    readValue? ((quotedValue value).toList ++ rest) =
      some (String.ofList (value.toList.flatMap escapeInAttribute), rest) := by
  have inside : '"' ∉ value.toList.flatMap escapeInAttribute := by
    intro member
    obtain ⟨c, _, here⟩ := List.mem_flatMap.mp member
    exact quote_not_mem_escapeInAttribute c here
  rw [quotedValue, String.toList_ofList, List.cons_append, List.cons_append, List.append_assoc,
    readValue?, trimStart_eq_self _ (by decide)]
  simp only [true_or, if_true]
  rw [List.singleton_append, cutAt_eq_some_iff.mpr ⟨rfl, inside⟩, Option.map_some]

theorem readOptionalValue?_quotedValue (value : String) (rest : List Char) :
    readOptionalValue? ('=' :: ((quotedValue value).toList ++ rest)) =
      some (String.ofList (value.toList.flatMap escapeInAttribute), rest) := by
  rw [readOptionalValue?, trimStart_eq_self _ (by decide)]
  exact readValue?_quotedValue value rest

/-- Escaping keeps the characters of attribute names. -/
theorem isAttributeNameCharacter_of_mem_escape {name : List Char}
    (all : ∀ c ∈ name, isAttributeNameCharacter c = true) :
    ∀ c ∈ escapeCharacters name, isAttributeNameCharacter c = true := by
  intro c member
  obtain ⟨d, inside, here⟩ := List.mem_flatMap.mp member
  unfold escapeCharacter at here
  split_ifs at here
  · have entity : ['&', 'l', 't', ';'].all isAttributeNameCharacter = true := by decide
    exact List.all_eq_true.mp entity c here
  · have entity : ['&', 'g', 't', ';'].all isAttributeNameCharacter = true := by decide
    exact List.all_eq_true.mp entity c here
  · rw [List.mem_singleton.mp here]
    exact all d inside

/-- Escaping leaves something of every text. -/
theorem eq_nil_of_escapeCharacters {text : List Char} (empty : escapeCharacters text = []) :
    text = [] := by
  cases text with
  | nil => rfl
  | cons c rest =>
    rw [escapeCharacters, List.flatMap_cons, List.append_eq_nil_iff] at empty
    have nothing := empty.1
    unfold escapeCharacter at nothing
    split_ifs at nothing

/-- A written attribute is read from the first character of its name on. -/
theorem readAttribute?_written {name : String} (readable : ReadableName name) (value : String) :
    ∃ c others, escapeCharacters name.toList = c :: others ∧ isBlank c = false ∧ c ≠ '/' ∧
      c ≠ '>' ∧ ∀ rest,
        readAttribute? c (others ++ '=' :: ((quotedValue value).toList ++ rest)) =
          some ((nameOf (c :: others), String.ofList (value.toList.flatMap escapeInAttribute)),
            rest) := by
  rcases readable with rfl | ⟨nonempty, all⟩
  · refine ⟨'=', [], by decide, by decide, by decide, by decide, fun rest => ?_⟩
    rw [readAttribute?]
    show (if true then _ else _) = _
    rw [if_pos rfl, List.nil_append, readOptionalValue?_quotedValue, Option.map_some]
  · have kept := isAttributeNameCharacter_of_mem_escape all
    cases same : escapeCharacters name.toList with
    | nil => exact absurd (String.toList_eq_nil_iff.mp (eq_nil_of_escapeCharacters same)) nonempty
    | cons c others =>
      rw [same] at kept
      have first := kept c List.mem_cons_self
      simp only [isAttributeNameCharacter, Bool.not_eq_true', Bool.or_eq_false_iff,
        beq_eq_false_iff_ne] at first
      obtain ⟨⟨⟨solid, slash⟩, angle⟩, _⟩ := first
      refine ⟨c, others, rfl, solid, slash, angle, fun rest => ?_⟩
      have stop : isAttributeNameCharacter '=' = false := by decide
      rw [readAttribute?, ← List.cons_append, List.takeWhile_append_of_pos kept,
        List.dropWhile_append_of_pos kept, List.takeWhile_cons_of_neg (by simp [stop]),
        List.dropWhile_cons_of_neg (by simp [stop]), List.append_nil]
      show (if false = true then _ else _) = _
      rw [if_neg Bool.false_ne_true, readOptionalValue?_quotedValue, Option.map_some]

/-- An attribute is added to those known unless its name is known. -/
theorem readTag_of_attribute {known : List Attribute} {text rest after : List Char} {c : Char}
    {entry : Attribute} (start : trimStart text = c :: rest) (slash : c ≠ '/') (angle : c ≠ '>')
    (named : readAttribute? c rest = some (entry, after)) :
    readTag known text =
      readTag (if known.any fun other => other.1 == entry.1 then known else known ++ [entry])
        after := by
  rw [readTag]
  split <;> rename_i other <;> rw [start] at other <;> cases other
  · exact absurd rfl angle
  · exact absurd rfl slash
  · exact absurd rfl slash
  · split
    · rename_i missing
      rw [named] at missing
      cases missing
    · rename_i found
      rw [named] at found
      cases found
      rfl

/-- **A written attribute is added with its name in lower case and its escaped value**, unless its
name is known. -/
theorem readTag_attributeText {name : String} (readable : ReadableName name) (value : String)
    (known : List Attribute) (rest : List Char) :
    readTag known ((attributeText name value).toList ++ rest) =
      readTag (if known.any fun other => other.1 == nameOf (escapeCharacters name.toList) then known
        else known ++ [(nameOf (escapeCharacters name.toList),
          String.ofList (value.toList.flatMap escapeInAttribute))]) rest := by
  obtain ⟨c, others, same, solid, slash, angle, named⟩ := readAttribute?_written readable value
  have text : (attributeText name value).toList ++ rest =
      ' ' :: c :: (others ++ '=' :: ((quotedValue value).toList ++ rest)) := by
    rw [attributeText, escape, same]
    simp
  have start : trimStart (' ' :: c :: (others ++ '=' :: ((quotedValue value).toList ++ rest))) =
      c :: (others ++ '=' :: ((quotedValue value).toList ++ rest)) := by
    show trimStart (c :: _) = _
    exact trimStart_eq_self _ solid
  rw [text, same, readTag_of_attribute start slash angle (named rest)]

/-- A written attribute starts with a space. -/
theorem head_attributeText (name value : String) :
    ∀ c ∈ (attributeText name value).toList.head?, c = ' ' := by
  intro c found
  rw [attributeText, String.toList_append, String.toList_append, String.toList_append] at found
  exact (Option.some.inj found).symm

/-- **A written attribute adds its name**, whatever its value is. -/
theorem readsNames_attributeText {name : String} (readable : ReadableName name) (value : String) :
    ReadsNames (attributeText name value) [nameOf (escapeCharacters name.toList)] where
  separated := head_attributeText name value
  reads known := by
    refine ⟨_, ?_, readTag_attributeText readable value known⟩
    rw [addNames, List.foldl_cons, List.foldl_nil]
    by_cases present : nameOf (escapeCharacters name.toList) ∈ known.map Prod.fst
    · rw [if_pos present, if_pos]
      simpa using present
    · rw [if_neg present, if_neg]
      · rw [List.map_append, List.map_singleton]
      · simpa using present

theorem attributesText_cons (name value : String) (rest : List Attribute) :
    attributesText ((name, value) :: rest) = attributeText name value ++ attributesText rest := by
  simp [attributesText]

/-- Written attributes add their names. -/
theorem readsNames_attributesText {attributes : List Attribute}
    (readable : ∀ entry ∈ attributes, ReadableName entry.1) :
    ReadsNames (attributesText attributes)
      (attributes.map fun entry => nameOf (escapeCharacters entry.1.toList)) := by
  induction attributes with
  | nil => exact ReadsNames.empty
  | cons first rest ih =>
    obtain ⟨name, value⟩ := first
    rw [attributesText_cons]
    exact (readsNames_attributeText (readable _ List.mem_cons_self) value).append
      (ih fun entry member => readable entry (List.mem_cons_of_mem _ member))

theorem readTag_close (known : List Attribute) (rest : List Char) :
    readTag known ('>' :: rest) = some ((known, false), rest) := by
  have start := trimStart_eq_self (c := '>') rest (by decide)
  rw [readTag]
  split <;> rename_i other <;> rw [start] at other <;> cases other
  · rfl
  · rename_i angle _ _
    exact absurd rfl angle

/-- A tag that closes itself may do so behind a space. -/
theorem readTag_selfClose (known : List Attribute) {text rest : List Char}
    (start : trimStart text = '/' :: '>' :: rest) :
    readTag known text = some ((known, true), rest) := by
  rw [readTag]
  split <;> rename_i other <;> rw [start] at other <;> cases other
  · rfl
  · rename_i angle
    exact absurd rfl (angle rest)
  · rename_i slash _
    exact absurd rfl slash

/-- **A piece of a start tag is read as attributes**, if there are none before it. -/
structure ReadsAttributes (text : String) (found : List Attribute) : Prop where
  /-- The name of the tag ends there. -/
  separated : ∀ c ∈ text.toList.head?, c = ' '
  reads : ∀ rest, readTag [] (text.toList ++ rest) = readTag found rest

/-- A piece of a start tag that adds names is read as attributes of these names. -/
theorem ReadsNames.attributes {text : String} {names : List String}
    (reads : ReadsNames text names) :
    ∃ found, found.map Prod.fst = addNames [] names ∧ ReadsAttributes text found := by
  obtain ⟨found, same, read⟩ := reads.reads []
  exact ⟨found, same, reads.separated, read⟩

/-! ### Constructs -/

/-- Whether a tag of a name is read again when it is written. -/
structure ReadableTag (tag : String) : Prop where
  starts : ∃ c rest, tag.toList = c :: rest ∧ c.isAlpha = true
  characters : ∀ c ∈ tag.toList, isTagNameCharacter c = true
  lower : asciiLower tag.toList = tag.toList

/-- Whether a node is read again when it is written. -/
def Content.Readable : Content → Prop
  | .element tag attributes =>
    ReadableTag tag ∧ ∀ entry ∈ attributes, ReadableName entry.1
  | .text _ => True
  | .comment inner => ¬ ['-', '-', '>'] <:+: inner.toList
  | .raw tag attributes content =>
    ReadableTag tag ∧ (∀ entry ∈ attributes, ReadableName entry.1) ∧
      isRawText tag = true ∧ ¬ ('<' :: '/' :: tag.toList) <:+: asciiLower content.toList
  | .declaration inner =>
    (∃ c rest, inner.toList = c :: rest ∧ (c = '!' ∨ c = '?')) ∧ '>' ∉ inner.toList ∧
      ¬ ['!', '-', '-'] <+: inner.toList

namespace ReadableTag

variable {tag : String}

theorem nameOf_eq (readable : ReadableTag tag) : nameOf tag.toList = tag := by
  rw [nameOf, readable.lower, String.ofList_toList]

/-- The name is read up to the first character that ends it. -/
theorem takeWhile_eq (readable : ReadableTag tag) {rest : List Char}
    (stop : ∀ c ∈ rest.head?, isTagNameCharacter c = false) :
    (tag.toList ++ rest).takeWhile isTagNameCharacter = tag.toList :=
  takeWhile_append_stop readable.characters stop

theorem dropWhile_eq (readable : ReadableTag tag) {rest : List Char}
    (stop : ∀ c ∈ rest.head?, isTagNameCharacter c = false) :
    (tag.toList ++ rest).dropWhile isTagNameCharacter = rest :=
  dropWhile_append_stop readable.characters stop

/-- What starts with the name of a tag is read as a start tag. -/
theorem readConstruct_eq (readable : ReadableTag tag) (rest : List Char) :
    readConstruct (tag.toList ++ rest) = some (readOpening (tag.toList ++ rest)) := by
  obtain ⟨c, others, same, alpha⟩ := readable.starts
  have mark : ¬ (c = '!' ∨ c = '?') := by
    rintro (rfl | rfl) <;> cases alpha
  have slash : ¬ c = '/' := by
    rintro rfl
    cases alpha
  rw [same, List.cons_append]
  unfold readConstruct
  split
  · rename_i other
    exact absurd (Or.inl (List.cons.inj other).1) mark
  · rename_i head
    cases head
    rw [if_neg mark, if_neg slash, if_pos alpha]
  · rename_i wrong
    cases wrong

/-- Raw text elements have names of letters. -/
theorem not_mem_of_isRawText (raw : isRawText tag = true) : '<' ∉ tag.toList := by
  simp only [isRawText, rawTextTags, List.contains_eq_mem, List.mem_cons, List.not_mem_nil,
    or_false, decide_eq_true_eq] at raw
  rcases raw with rfl | rfl <;> decide

end ReadableTag

variable {tag attributes : String} {names : List String} {found : List Attribute}

/-- **An end tag is a construct.** -/
theorem constructs_tagEnd (readable : ReadableTag tag) :
    Constructs (tagEnd tag) (.closing tag) := by
  have text : tagEnd tag = "<" ++ ("/" ++ tag ++ ">") := by
    apply String.toList_injective
    simp [tagEnd]
  refine ⟨_, text, fun rest => ?_⟩
  obtain ⟨c, others, same, alpha⟩ := readable.starts
  have stop : ∀ d ∈ ('>' :: rest).head?, isTagNameCharacter d = false := by
    rintro d ⟨⟩
    decide
  have closing : readClosing (tag.toList ++ '>' :: rest) = .ok (.closing tag, rest) := by
    rw [readClosing, readable.takeWhile_eq stop, readable.dropWhile_eq stop, readable.nameOf_eq]
    rfl
  have characters : ("/" ++ tag ++ ">").toList ++ rest = '/' :: (tag.toList ++ '>' :: rest) := by
    simp
  rw [characters]
  rw [same, List.cons_append] at closing ⊢
  show (if c.isAlpha = true then _ else _) = _
  rw [if_pos alpha, closing]

/-- **A declaration is a construct.** -/
theorem constructs_declarationText {inner : String}
    (readable : (Content.declaration inner).Readable) :
    Constructs (declarationText inner) (.declaration inner) := by
  obtain ⟨⟨c, others, same, mark⟩, angle, comment⟩ := readable
  have text : declarationText inner = "<" ++ (inner ++ ">") := by
    rw [declarationText, String.append_assoc]
  refine ⟨_, text, fun rest => ?_⟩
  have characters : (inner ++ ">").toList ++ rest = inner.toList ++ '>' :: rest := by
    simp
  have cut : cutAt '>' (inner.toList ++ '>' :: rest) = some (inner.toList, rest) :=
    cutAt_eq_some_iff.mpr ⟨rfl, angle⟩
  rw [characters]
  rw [same] at comment
  rw [same, List.cons_append] at cut ⊢
  unfold readConstruct
  split
  · rename_i other
    have starts : ['!', '-', '-'] <+: (c :: others) ++ '>' :: rest := ⟨_, other.symm⟩
    rcases List.prefix_or_prefix_of_prefix starts (List.prefix_append _ _) with
      inside | ⟨tail, whole⟩
    · exact absurd inside comment
    · -- the closing bracket would be part of what a comment starts with
      rw [← whole, List.prefix_append_right_inj] at starts
      cases tail with
      | nil =>
        rw [List.append_nil] at whole
        exact absurd (whole ▸ List.prefix_rfl) comment
      | cons d more =>
        obtain rfl : d = '>' := (List.cons_prefix_cons.mp starts).1
        have inside : '>' ∈ ['!', '-', '-'] := by
          rw [← whole]
          simp
        exact absurd inside (by decide)
  · rename_i head
    cases head
    rw [if_pos mark, cut, ← same]
    simp only [String.ofList_toList]
  · rename_i wrong
    cases wrong

/-- A comment does not end in the spaces around its trimmed text either. -/
theorem not_infix_padded {inner : String} (readable : (Content.comment inner).Readable) :
    ¬ ['-', '-', '>'] <:+: ' ' :: (trim inner.toList ++ [' ']) := by
  intro within
  rw [List.infix_cons_iff, List.infix_concat_iff, List.suffix_concat_iff] at within
  rcases within with ⟨_, wrong⟩ | (wrong | ⟨front, wrong, _⟩) | within
  · cases wrong
  · cases wrong
  · have last := congrArg List.getLast? wrong
    rw [List.getLast?_append] at last
    cases last
  · exact readable (within.trans (isInfix_trim _))

/-- **A comment is a construct**, in which its text is trimmed. -/
theorem constructs_commentText {inner : String} (readable : (Content.comment inner).Readable) :
    Constructs (commentText inner) (.comment (" " ++ trimmed inner ++ " ")) := by
  have text : commentText inner = "<" ++ ("!--" ++ (" " ++ trimmed inner ++ " ") ++ "-->") := by
    apply String.toList_injective
    simp [commentText]
  refine ⟨_, text, fun rest => ?_⟩
  have spaced : (" " ++ trimmed inner ++ " ").toList = ' ' :: (trim inner.toList ++ [' ']) := by
    simp [trimmed]
  have characters : ("!--" ++ (" " ++ trimmed inner ++ " ") ++ "-->").toList ++ rest =
      '!' :: '-' :: '-' ::
        ((" " ++ trimmed inner ++ " ").toList ++ (['-', '-', '>'] ++ rest)) := by
    simp
  have cut : cutAtText ['-', '-', '>']
      ((" " ++ trimmed inner ++ " ").toList ++ (['-', '-', '>'] ++ rest)) =
        some ((" " ++ trimmed inner ++ " ").toList, rest) := by
    rw [spaced]
    refine (cutAtText_eq_some_iff (by decide)).mpr
      ⟨rfl, List.prefix_append _ _, fun back suffix nonempty starts => ?_⟩
    rcases prefix_append_needle starts with inside | ⟨tail, _, same, _⟩
    · exact not_infix_padded readable (inside.isInfix.trans suffix.isInfix)
    · -- the needle has no space, but every end of the text has one
      rw [← List.cons_append, List.suffix_concat_iff] at suffix
      rcases suffix with wrong | ⟨front, rfl, _⟩
      · exact nonempty wrong
      · have space : ' ' ∈ ['-', '-', '>'] := by
          rw [same]
          simp
        exact absurd space (by decide)
  rw [characters, readConstruct, cut]
  simp only [String.ofList_toList]

/-- The name of a tag ends where its attributes start, or the tag ends. -/
theorem ReadsAttributes.stop (reads : ReadsAttributes attributes found) {tail : List Char}
    (last : ∀ c ∈ tail.head?, isTagNameCharacter c = false) :
    ∀ d ∈ (attributes.toList ++ tail).head?, isTagNameCharacter d = false := by
  intro d inside
  cases start : attributes.toList with
  | nil =>
    rw [start] at inside
    exact last d inside
  | cons first others =>
    rw [start] at inside
    rw [reads.separated d (by rw [start]; exact inside)]
    decide

/-- A start tag up to its closing bracket is read as its name and its attributes. -/
theorem readOpening_close (readable : ReadableTag tag) (reads : ReadsAttributes attributes found)
    (rest : List Char) :
    readOpening (tag.toList ++ (attributes.toList ++ '>' :: rest)) =
      if isRawText tag then
        match readRaw tag rest with
        | none => .error (.rawText tag)
        | some (content, rest) => .ok (.raw tag found content, rest)
      else .ok (.opening tag found false, rest) := by
  have last : ∀ c ∈ ('>' :: rest).head?, isTagNameCharacter c = false := by
    rintro c ⟨⟩
    decide
  have stop := reads.stop last
  rw [readOpening, readable.takeWhile_eq stop, readable.dropWhile_eq stop, readable.nameOf_eq,
    reads.reads, readTag_close]
  cases isRawText tag with
  | true => rfl
  | false => rfl

/-- **A start tag is a construct.** -/
theorem constructs_startTag (readable : ReadableTag tag) (ordinary : isRawText tag = false)
    (reads : ReadsAttributes attributes found) :
    Constructs ("<" ++ tag ++ attributes ++ ">") (.opening tag found false) := by
  have text : "<" ++ tag ++ attributes ++ ">" = "<" ++ (tag ++ attributes ++ ">") := by
    simp only [String.append_assoc]
  refine ⟨_, text, fun rest => ?_⟩
  have characters : (tag ++ attributes ++ ">").toList ++ rest =
      tag.toList ++ (attributes.toList ++ '>' :: rest) := by
    simp
  rw [characters, readable.readConstruct_eq, readOpening_close readable reads,
    if_neg (by simp [ordinary])]

/-- **The tag of a void element is a construct**, whether or not a space stands before its end. -/
theorem constructs_voidTag (readable : ReadableTag tag) (reads : ReadsAttributes attributes found)
    {closer : String} (ends : closer = "/>" ∨ closer = " />") :
    Constructs ("<" ++ tag ++ attributes ++ closer) (.opening tag found true) := by
  have text : "<" ++ tag ++ attributes ++ closer = "<" ++ (tag ++ attributes ++ closer) := by
    simp only [String.append_assoc]
  refine ⟨_, text, fun rest => ?_⟩
  have characters : (tag ++ attributes ++ closer).toList ++ rest =
      tag.toList ++ (attributes.toList ++ (closer.toList ++ rest)) := by
    simp
  have last : ∀ c ∈ (closer.toList ++ rest).head?, isTagNameCharacter c = false := by
    rcases ends with rfl | rfl <;> rintro c ⟨⟩ <;> decide
  have slash : trimStart (closer.toList ++ rest) = '/' :: '>' :: rest := by
    rcases ends with rfl | rfl <;> exact trimStart_eq_self (c := '/') _ (by decide)
  have stop := reads.stop last
  rw [characters, readable.readConstruct_eq, readOpening, readable.takeWhile_eq stop,
    readable.dropWhile_eq stop, readable.nameOf_eq, reads.reads, readTag_selfClose found slash]
  simp only [Bool.not_true, Bool.and_false, Bool.false_eq_true, if_false]

/-- Raw content is read up to the end tag behind it. -/
theorem readRaw_append (readable : ReadableTag tag) (raw : isRawText tag = true) {content : String}
    (absent : ¬ ('<' :: '/' :: tag.toList) <:+: asciiLower content.toList) (rest : List Char) :
    readRaw tag (content.toList ++ ((tagEnd tag).toList ++ rest)) = some (content, rest) := by
  have characters : content.toList ++ ((tagEnd tag).toList ++ rest) =
      content.toList ++ '<' :: '/' :: (tag.toList ++ ([] ++ '>' :: rest)) := by
    simp [tagEnd]
  refine readRaw_eq_some_iff.mpr ⟨tag.toList, [], characters, readable.lower, List.not_mem_nil,
    spellsEnd_append readable.lower _, fun back suffix nonempty starts => ?_⟩
  have lower : asciiLower (back ++ '<' :: '/' :: (tag.toList ++ ([] ++ '>' :: rest))) =
      asciiLower back ++ (('<' :: '/' :: tag.toList) ++ asciiLower ('>' :: rest)) := by
    conv => rhs; rw [← readable.lower]
    simp [asciiLower]
  rw [SpellsEnd, lower] at starts
  rcases prefix_append_needle starts with inside | ⟨tail, extra, same, other⟩
  · exact absent (inside.isInfix.trans (suffix.map _).isInfix)
  · -- what overlaps would start with the bracket, which the name does not contain
    obtain ⟨c, others, rfl⟩ := List.exists_cons_of_ne_nil nonempty
    obtain ⟨d, more, rfl⟩ := List.exists_cons_of_ne_nil extra
    obtain rfl : d = '<' := (List.cons_prefix_cons.mp other).1
    have late : '<' ∈ '/' :: tag.toList := by
      rw [(List.cons.inj same).2]
      simp
    rcases List.mem_cons.mp late with wrong | late
    · cases wrong
    · exact ReadableTag.not_mem_of_isRawText raw late

/-- **A raw text element is a construct**, if its content has no end tag of its name. -/
theorem constructs_rawElement (readable : ReadableTag tag) (raw : isRawText tag = true)
    (reads : ReadsAttributes attributes found) {content : String}
    (absent : ¬ ('<' :: '/' :: tag.toList) <:+: asciiLower content.toList) :
    Constructs ("<" ++ tag ++ attributes ++ ">" ++ content ++ tagEnd tag)
      (.raw tag found content) := by
  have text : "<" ++ tag ++ attributes ++ ">" ++ content ++ tagEnd tag =
      "<" ++ (tag ++ attributes ++ ">" ++ content ++ tagEnd tag) := by
    simp only [String.append_assoc]
  refine ⟨_, text, fun rest => ?_⟩
  have characters : (tag ++ attributes ++ ">" ++ content ++ tagEnd tag).toList ++ rest =
      tag.toList ++ (attributes.toList ++
        '>' :: (content.toList ++ ((tagEnd tag).toList ++ rest))) := by
    simp
  rw [characters, readable.readConstruct_eq, readOpening_close readable reads, if_pos raw,
    readRaw_append readable raw absent]

/-! ### Marks of tags -/

/-- **A start tag leaves its mark.** -/
theorem reads_startTag (readable : ReadableTag tag) (ordinary : isRawText tag = false)
    (reads : ReadsNames attributes names) :
    Reads ("<" ++ tag ++ attributes ++ ">") [.opening tag (addNames [] names) false] := by
  obtain ⟨found, same, read⟩ := reads.attributes
  rw [← same]
  exact (constructs_startTag readable ordinary read).reads

/-- **The tag of a void element leaves its mark.** -/
theorem reads_voidTag (readable : ReadableTag tag) (reads : ReadsNames attributes names) :
    Reads ("<" ++ tag ++ attributes ++ " />") [.opening tag (addNames [] names) true] := by
  obtain ⟨found, same, read⟩ := reads.attributes
  rw [← same]
  exact (constructs_voidTag readable read (Or.inr rfl)).reads

/-- **A raw text element leaves its mark**, if its content has no end tag of its name. -/
theorem reads_rawElement (readable : ReadableTag tag) (raw : isRawText tag = true)
    (reads : ReadsNames attributes names) {content : String}
    (absent : ¬ ('<' :: '/' :: tag.toList) <:+: asciiLower content.toList) :
    Reads ("<" ++ tag ++ attributes ++ ">" ++ content ++ tagEnd tag)
      [.raw tag (addNames [] names)] := by
  obtain ⟨found, same, read⟩ := reads.attributes
  rw [← same]
  exact (constructs_rawElement readable raw read absent).reads

end DataBind.Markup
