/-
**From markup text to events.**

Markup is read leniently into a sequence of events: tags, comments, declarations, raw text
elements, and the text between them. A `<` that starts none of these is text. Reading stops at a
construct that does not end; the error names the offset of its `<` in bytes.

* `scan_nil`: at the end only the pending text is left;
* `readTag_length`, `readRaw_length`: a construct takes part of the text.
-/

import DataBind.Markup.Fragment
import DataBind.Text.Case
import DataBind.Text.Measure
import DataBind.Text.Search
import DataBind.Text.Taken

namespace DataBind.Markup

open DataBind.Text

/-- What markup consists of, in order. -/
inductive Event where
  | text (text : String)
  | comment (text : String)
  | declaration (text : String)
  | raw (tag : String) (attributes : List Attribute) (content : String)
  | opening (tag : String) (attributes : List Attribute) (selfClosing : Bool)
  | closing (tag : String)
  deriving DecidableEq, Repr

/-- Why markup cannot be read. -/
inductive MarkupError where
  | unterminatedComment (position : Nat)
  | unterminatedTag (tag : String) (position : Nat)
  | unterminatedRawText (tag : String) (position : Nat)
  | unterminatedDeclaration (position : Nat)
  | tree (error : AppendError)
  deriving DecidableEq, Repr

/-- The wording of an error. -/
def MarkupError.message : MarkupError → String
  | .unterminatedComment position =>
    "unterminated comment starting at offset " ++ toString position
  | .unterminatedTag tag position =>
    "unterminated <" ++ tag ++ "> tag starting at offset " ++ toString position
  | .unterminatedRawText tag position =>
    "missing </" ++ tag ++ "> for the <" ++ tag ++ "> starting at offset " ++ toString position
  | .unterminatedDeclaration position =>
    "unterminated markup declaration starting at offset " ++ toString position
  | .tree error => "building the node tree: " ++ error.message

/-! ### Characters -/

/-- Whether a character can be part of a tag name. -/
def isTagNameCharacter (c : Char) : Bool :=
  !(isBlank c || c == '/' || c == '>')

/-- Whether a character can be part of an attribute name. -/
def isAttributeNameCharacter (c : Char) : Bool :=
  !(isBlank c || c == '/' || c == '>' || c == '=')

/-- Whether a character can be part of an attribute value without quotes. -/
def isPlainValueCharacter (c : Char) : Bool :=
  !(isBlank c || c == '>')

/-- A name with its ASCII letters in lower case. -/
def nameOf (text : List Char) : String :=
  String.ofList (asciiLower text)

/-! ### Tags -/

/-- The value of an attribute, after its equals sign. Nothing if a quote is not closed. -/
def readValue? (text : List Char) : Option (String × List Char) :=
  match trimStart text with
  | [] => some ("", [])
  | c :: rest =>
    if c = '"' ∨ c = '\x27' then
      (cutAt c rest).map fun (value, after) => (String.ofList value, after)
    else
      some (String.ofList ((c :: rest).takeWhile isPlainValueCharacter),
        (c :: rest).dropWhile isPlainValueCharacter)

/-- An optional value of an attribute, after its name. -/
def readOptionalValue? (text : List Char) : Option (String × List Char) :=
  match trimStart text with
  | '=' :: rest => readValue? rest
  | rest => some ("", rest)

/-- Reads an attribute whose name starts with a character; a stray equals sign is a name. -/
def readAttribute? (c : Char) (rest : List Char) : Option (Attribute × List Char) :=
  let key := (c :: rest).takeWhile isAttributeNameCharacter
  if key.isEmpty then
    (readOptionalValue? rest).map fun (value, after) => ((nameOf [c], value), after)
  else
    (readOptionalValue? ((c :: rest).dropWhile isAttributeNameCharacter)).map
      fun (value, after) => ((nameOf key, value), after)

theorem dropWhile_length_le {α : Type} (p : α → Bool) (items : List α) :
    (items.dropWhile p).length ≤ items.length :=
  (List.dropWhile_suffix p).length_le

theorem readValue?_length {text rest : List Char} {value : String}
    (read : readValue? text = some (value, rest)) : rest.length ≤ text.length := by
  have start := trimStart_length_le text
  unfold readValue? at read
  split at read
  · simp only [Option.some.injEq, Prod.mk.injEq] at read
    simp [← read.2]
  · rename_i c inner same
    rw [same] at start
    split at read
    · simp only [Option.map_eq_some_iff, Prod.mk.injEq, Prod.exists] at read
      obtain ⟨_, _, cut, _, rfl⟩ := read
      have := cutAt_length cut
      simp only [List.length_cons] at start
      omega
    · simp only [Option.some.injEq, Prod.mk.injEq] at read
      have := dropWhile_length_le isPlainValueCharacter (c :: inner)
      rw [← read.2]
      omega

theorem readOptionalValue?_length {text rest : List Char} {value : String}
    (read : readOptionalValue? text = some (value, rest)) : rest.length ≤ text.length := by
  have start := trimStart_length_le text
  unfold readOptionalValue? at read
  split at read
  · rename_i same
    have := readValue?_length read
    rw [same] at start
    simp only [List.length_cons] at start
    omega
  · simp only [Option.some.injEq, Prod.mk.injEq] at read
    rw [← read.2]
    exact start

theorem readAttribute?_length {c : Char} {text rest : List Char} {entry : Attribute}
    (read : readAttribute? c text = some (entry, rest)) : rest.length ≤ text.length := by
  unfold readAttribute? at read
  simp only at read
  split at read
  · simp only [Option.map_eq_some_iff, Prod.mk.injEq, Prod.exists] at read
    obtain ⟨_, _, value, _, rfl⟩ := read
    exact readOptionalValue?_length value
  · rename_i key
    simp only [Option.map_eq_some_iff, Prod.mk.injEq, Prod.exists] at read
    obtain ⟨_, _, value, _, rfl⟩ := read
    have after := readOptionalValue?_length value
    have first : isAttributeNameCharacter c = true := by
      by_cases name : isAttributeNameCharacter c = true
      · exact name
      · simp [name] at key
    have := dropWhile_length_le isAttributeNameCharacter text
    simp only [List.dropWhile_cons, first, if_true] at after
    omega

/-- A start tag from its attributes on: the attributes, of which the first of each name counts,
whether it closes itself, and the rest. Nothing if the tag does not end. -/
def readTag (attributes : List Attribute) (text : List Char) :
    Option ((List Attribute × Bool) × List Char) :=
  match _inside : trimStart text with
  | [] => none
  | '>' :: rest => some ((attributes, false), rest)
  | '/' :: '>' :: rest => some ((attributes, true), rest)
  | '/' :: rest =>
    have := trimStart_length_le text
    readTag attributes rest
  | c :: rest =>
    match named : readAttribute? c rest with
    | none => none
    | some (entry, after) =>
      have := trimStart_length_le text
      have := readAttribute?_length named
      let known := attributes.any fun (name, _) => name == entry.1
      readTag (if known then attributes else attributes ++ [entry]) after
termination_by text.length
decreasing_by
  all_goals
    simp only [_inside, List.length_cons] at *
    omega

theorem readTag_length {attributes found : List Attribute} {text rest : List Char}
    {selfClosing : Bool} (read : readTag attributes text = some ((found, selfClosing), rest)) :
    rest.length < text.length := by
  fun_induction readTag attributes text with
  | case1 => cases read
  | case2 _ text _ inside =>
    have start := trimStart_length_le text
    rw [inside] at start
    cases read
    simp only [List.length_cons] at start
    omega
  | case3 _ text _ inside =>
    have start := trimStart_length_le text
    rw [inside] at start
    cases read
    simp only [List.length_cons] at start
    omega
  | case4 _ text _ _ inside start ih =>
    have := ih read
    rw [inside] at start
    simp only [List.length_cons] at start
    omega
  | case5 => cases read
  | case6 _ text _ _ _ _ _ inside entry after named start shorter known ih =>
    have := ih read
    rw [inside] at start
    simp only [List.length_cons] at start
    omega

/-- The content of a raw text element, up to its end tag, and the rest after the end tag. -/
def readRaw (tag : String) (text : List Char) : Option (String × List Char) :=
  let needle := '<' :: '/' :: tag.toList
  match indexOf? needle (asciiLower text) with
  | none => none
  | some length =>
    (cutAt '>' (text.drop (length + needle.length))).map fun (_, after) =>
      (String.ofList (text.take length), after)

theorem readRaw_length {tag content : String} {text rest : List Char}
    (read : readRaw tag text = some (content, rest)) : rest.length < text.length := by
  unfold readRaw at read
  simp only at read
  split at read
  · cases read
  · simp only [Option.map_eq_some_iff, Prod.mk.injEq, Prod.exists] at read
    obtain ⟨_, _, cut, _, rfl⟩ := read
    have := cutAt_length cut
    simp only [List.length_drop] at this
    omega

/-- Why a construct cannot be read, wherever it stands. -/
inductive Unterminated where
  | comment
  | tag (name : String)
  | rawText (name : String)
  | declaration

/-- The error of a construct at a position. -/
def Unterminated.at (position : Nat) : Unterminated → MarkupError
  | .comment => .unterminatedComment position
  | .tag name => .unterminatedTag name position
  | .rawText name => .unterminatedRawText name position
  | .declaration => .unterminatedDeclaration position

/-- A start tag, and the content of its element if that is no markup; from the tag name on. -/
def readOpening (text : List Char) : Except Unterminated (Event × List Char) :=
  let tag := nameOf (text.takeWhile isTagNameCharacter)
  match readTag [] (text.dropWhile isTagNameCharacter) with
  | none => .error (.tag tag)
  | some ((attributes, selfClosing), rest) =>
    if isRawText tag && !selfClosing then
      match readRaw tag rest with
      | none => .error (.rawText tag)
      | some (content, rest) => .ok (.raw tag attributes content, rest)
    else .ok (.opening tag attributes selfClosing, rest)

/-- An end tag from its name on. What follows the name is passed over. -/
def readClosing (text : List Char) : Except Unterminated (Event × List Char) :=
  let tag := nameOf (text.takeWhile isTagNameCharacter)
  match cutAt '>' (text.dropWhile isTagNameCharacter) with
  | none => .error (.tag tag)
  | some (_, rest) => .ok (.closing tag, rest)

/-- Reads the construct that follows a `<`; nothing if the `<` is text. -/
def readConstruct (text : List Char) : Option (Except Unterminated (Event × List Char)) :=
  match text with
  | '!' :: '-' :: '-' :: rest =>
    some
      (match cutAtText ['-', '-', '>'] rest with
        | none => .error .comment
        | some (inner, rest) => .ok (.comment (String.ofList inner), rest))
  | c :: rest =>
    if c = '!' ∨ c = '?' then
      some
        (match cutAt '>' (c :: rest) with
          | none => .error .declaration
          | some (inner, rest) => .ok (.declaration (String.ofList inner), rest))
    else if c = '/' then
      match rest with
      | d :: _ => if d.isAlpha then some (readClosing rest) else none
      | [] => none
    else if c.isAlpha then some (readOpening (c :: rest))
    else none
  | [] => none

theorem cutAtText_length {needle text before after : List Char}
    (cut : cutAtText needle text = some (before, after)) : after.length ≤ text.length := by
  rw [cutAtText_eq_some cut]
  simp only [List.length_append]
  omega

theorem readOpening_length {text rest : List Char} {event : Event}
    (read : readOpening text = .ok (event, rest)) : rest.length < text.length := by
  have name := dropWhile_length_le isTagNameCharacter text
  unfold readOpening at read
  simp only at read
  split at read
  · cases read
  · rename_i tagged
    have tag := readTag_length tagged
    split at read
    · split at read
      · cases read
      · rename_i raw
        have content := readRaw_length raw
        simp only [Except.ok.injEq, Prod.mk.injEq] at read
        rw [← read.2]
        omega
    · simp only [Except.ok.injEq, Prod.mk.injEq] at read
      rw [← read.2]
      omega

theorem readClosing_length {text rest : List Char} {event : Event}
    (read : readClosing text = .ok (event, rest)) : rest.length < text.length := by
  have name := dropWhile_length_le isTagNameCharacter text
  unfold readClosing at read
  simp only at read
  split at read
  · cases read
  · rename_i cut
    have := cutAt_length cut
    simp only [Except.ok.injEq, Prod.mk.injEq] at read
    rw [← read.2]
    omega

/-- A construct takes part of the text. -/
theorem readConstruct_length {text rest : List Char} {event : Event}
    (read : readConstruct text = some (.ok (event, rest))) : rest.length < text.length := by
  unfold readConstruct at read
  split at read
  · simp only [Option.some.injEq] at read
    split at read
    · cases read
    · rename_i cut
      have := cutAtText_length cut
      simp only [Except.ok.injEq, Prod.mk.injEq] at read
      rw [← read.2]
      simp only [List.length_cons]
      omega
  · split at read
    · simp only [Option.some.injEq] at read
      split at read
      · cases read
      · rename_i cut
        have := cutAt_length cut
        simp only [Except.ok.injEq, Prod.mk.injEq] at read
        rw [← read.2]
        exact this
    · split at read
      · split at read
        · split at read
          · simp only [Option.some.injEq] at read
            have := readClosing_length read
            simp only [List.length_cons] at this ⊢
            omega
          · cases read
        · cases read
      · split at read
        · simp only [Option.some.injEq] at read
          exact readOpening_length read
        · cases read
  · cases read

/-! ### Events -/

/-- The event of pending text, given from its last character to its first; none if it is
empty. -/
def pendingText (pending : List Char) : List Event :=
  if pending.isEmpty then [] else [.text (String.ofList pending.reverse)]

/-- The events of a text after some pending text, and the error that ended reading. `finish` is
the length of the whole markup in bytes. -/
def scan (finish : Nat) (pending : List Char) (text : List Char) :
    List Event × Option MarkupError :=
  match text with
  | [] => (pendingText pending, none)
  | c :: rest =>
    if c = '<' then
      match construct : readConstruct rest with
      | none => scan finish (c :: pending) rest
      | some (.error cause) =>
        (pendingText pending, some (cause.at (finish - byteLength (c :: rest))))
      | some (.ok (event, after)) =>
        have := readConstruct_length construct
        let (events, error) := scan finish [] after
        (pendingText pending ++ event :: events, error)
    else scan finish (c :: pending) rest
termination_by text.length

/-- The events of markup, and the error that ended reading. -/
def events (markup : String) : List Event × Option MarkupError :=
  scan (byteLength markup.toList) [] markup.toList

theorem scan_nil (finish : Nat) (pending : List Char) :
    scan finish pending [] = (pendingText pending, none) := by
  rw [scan]

end DataBind.Markup
