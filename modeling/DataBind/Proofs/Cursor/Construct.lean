/-
**The cursor in a construct.**

What follows a `<` is told apart by its first characters, and read by the reader of its kind. An end
of raw text is searched in a copy in lower case, whose offsets are those of the text.

* `byteLength_asciiLower`: ASCII lower case keeps every offset;
* `rawContent_eq`: raw text is cut at the same place as its rest;
* `constructKind_eq`: the kind of what follows a `<`;
* `construct_eq`: a construct of any kind is read as its rest is.
-/

import DataBind.Proofs.Cursor.Attributes
import DataBind.Proofs.Markup.ConstructExtent
import DataBind.Proofs.Text.Lowering

namespace DataBind.Cursor

open DataBind.Text DataBind.Markup Scanned

/-! ### Readers -/

section Readers

variable (text : List Char) (position : Nat)

/-- Passes over everything up to the end of a tag. -/
def passTag (unended : MarkupError) (cursor : Nat) : Scanned MarkupError Nat := do
  let rest ← sliceFrom text cursor
  let close ← found unended (placeOf? '>' rest)
  return cursor + (close + 1)

/-- Reads raw text up to its end tag, and the end tag. -/
def rawContent (tag : String) (cursor : Nat) : Scanned MarkupError (String × Nat) := do
  let unended := MarkupError.unterminatedRawText tag position
  let needle := '<' :: '/' :: tag.toList
  let rest ← sliceFrom text cursor
  let length ← found unended (placeOfText? needle (asciiLower rest))
  let content ← sliceTo rest length
  let cursor ← passTag text unended (cursor + (length + byteLength needle))
  return (String.ofList content, cursor)

/-- Reads a start tag from its name on, and raw text with it. -/
noncomputable def openingTag (cursor : Nat) : Scanned MarkupError (Event × Nat) := do
  let (name, cursor) ← takeSpan isTagNameCharacter text cursor
  let tag := nameOf name
  let ((attributes, selfClosing), cursor) ←
    loop (tagStep text (.unterminatedTag tag position)) (cursor, [])
  if isRawText tag && !selfClosing then
    let (content, cursor) ← rawContent text position tag cursor
    return (.raw tag attributes content, cursor)
  else return (.opening tag attributes selfClosing, cursor)

/-- Reads an end tag from its name on. -/
def closingTag (cursor : Nat) : Scanned MarkupError (Event × Nat) := do
  let (name, cursor) ← takeSpan isTagNameCharacter text cursor
  let tag := nameOf name
  let cursor ← passTag text (.unterminatedTag tag position) cursor
  return (.closing tag, cursor)

/-- The kind of construct that starts with the `<` of a rest; none if the `<` is text. -/
def constructKind (rest : List Char) : Scanned MarkupError (Option Start) := do
  let inner ← sliceFrom rest 1
  if '<' :: commentMark <+: rest then return some .comment
  else
    match inner with
    | [] => return none
    | c :: _ =>
      if c = '!' ∨ c = '?' then return some .declaration
      else if c = '/' then
        let name ← sliceFrom rest 2
        return if name.head?.any Char.isAlpha then some .closing else none
      else return if c.isAlpha then some .opening else none

/-- Reads a construct at its position, given its kind and the rest from its `<` on. -/
noncomputable def construct (rest : List Char) : Start → Scanned MarkupError (Event × Nat)
  | .comment => do
    let inner ← sliceFrom rest 4
    let length ← found (.unterminatedComment position) (placeOfText? ['-', '-', '>'] inner)
    let comment ← slice rest 4 (4 + length)
    return (.comment (String.ofList comment), position + (4 + length + 3))
  | .declaration => do
    let finish ← found (.unterminatedDeclaration position) (placeOf? '>' rest)
    let inner ← slice rest 1 finish
    return (.declaration (String.ofList inner), position + (finish + 1))
  | .closing => closingTag text position (position + 2)
  | .opening => openingTag text position (position + 1)

end Readers

/-! ### Agreement -/

section Agreement

variable {text rest : List Char} {position : Nat}

/-- What has been read of a construct at a position, with the cursor behind it. -/
def settled (text : List Char) (position : Nat) :
    Except Unterminated (Event × List Char) → Scanned MarkupError (Event × Nat)
  | .ok read => pure (placed text read)
  | .error cause => fault (cause.at position)

/-- **ASCII lower case keeps every offset.** -/
theorem byteLength_asciiLower (text : List Char) :
    byteLength (asciiLower text) = byteLength text := by
  have kept : ∀ c : Char, c.toLower.utf8Size = c.utf8Size := by
    intro c
    cases alpha : c.isAlpha with
    | true =>
      exact forall_isAlpha (motive := fun c => c.toLower.utf8Size = c.utf8Size) (by decide) alpha
    | false => rw [toLower_of_not_isAlpha alpha]
  induction text with
  | nil => rfl
  | cons c rest ih =>
    show c.toLower.utf8Size + byteLength (asciiLower rest) = _
    rw [kept, ih, byteLength_cons]

/-- What is found in a text in lower case has its place and its size in the text. -/
theorem exists_of_lowered {needle low after : List Char}
    (cut : cutAtText needle (asciiLower rest) = some (low, after)) :
    ∃ front name back, rest = front ++ (name ++ back) ∧
      low.length = front.length ∧ byteLength low = byteLength front ∧
      needle.length = name.length ∧ byteLength needle = byteLength name := by
  have whole := cutAtText_eq_some cut
  rw [List.append_assoc] at whole
  obtain ⟨front, later, rfl, rfl, lowered⟩ := List.map_eq_append_iff.mp whole
  obtain ⟨name, back, rfl, rfl, rfl⟩ := List.map_eq_append_iff.mp lowered
  exact ⟨front, name, back, rfl, asciiLower_length front, byteLength_asciiLower front,
    asciiLower_length name, byteLength_asciiLower name⟩

/-- The end of a tag is where its rest is cut. -/
theorem passTag_eq (suffix : rest <:+ text) (unended : MarkupError) :
    passTag text unended (offsetOf text rest) =
      found unended ((cutAt '>' rest).map fun (_, after) => offsetOf text after) := by
  rw [passTag, sliceFrom_offsetOf suffix, pure_bind, placeOf?]
  cases cut : cutAt '>' rest with
  | none => rfl
  | some parts =>
    obtain ⟨front, after⟩ := parts
    obtain rfl := cutAt_eq_some cut
    simp only [Option.map_some, found_some, pure_bind, ← offsetOf_cut suffix]
    rfl

/-- **Raw text under the cursor** is cut at the same place as its rest. -/
theorem rawContent_eq (suffix : rest <:+ text) (tag : String) :
    rawContent text position tag (offsetOf text rest) =
      found (.unterminatedRawText tag position) ((readRaw tag rest).map (placed text)) := by
  simp only [rawContent, sliceFrom_offsetOf suffix, pure_bind, readRaw, indexOf?, placeOfText?]
  cases cut : cutAtText ('<' :: '/' :: tag.toList) (asciiLower rest) with
  | none => rfl
  | some parts =>
    obtain ⟨low, after⟩ := parts
    obtain ⟨front, name, back, rfl, shorter, narrower, named, spelled⟩ := exists_of_lowered cut
    have inside : name ++ back <:+ text := (List.suffix_append front _).trans suffix
    have behind : back <:+ text := (List.suffix_append name _).trans inside
    have taken : (front ++ (name ++ back)).take front.length = front := List.take_left
    have dropped : (front ++ (name ++ back)).drop (front.length + name.length) = back := by
      rw [← List.length_append, ← List.append_assoc, List.drop_left]
    have further : offsetOf text (front ++ (name ++ back)) + (byteLength front + byteLength name) =
        offsetOf text back := by
      rw [← Nat.add_assoc, offsetOf_add front suffix, offsetOf_add name inside]
    simp only [Option.map_some, found_some, pure_bind, narrower, spelled, shorter, named, taken,
      dropped, sliceTo_append, further, passTag_eq behind]
    cases cutAt '>' back with
    | none => rfl
    | some parts => rfl

theorem closingTag_eq (suffix : rest <:+ text) :
    closingTag text position (offsetOf text rest) = settled text position (readClosing rest) := by
  have behind : rest.dropWhile isTagNameCharacter <:+ text :=
    (List.dropWhile_suffix _).trans suffix
  simp only [closingTag, takeSpan_offsetOf _ suffix, pure_bind, passTag_eq behind, readClosing]
  cases cutAt '>' (rest.dropWhile isTagNameCharacter) with
  | none => rfl
  | some parts => rfl

theorem openingTag_eq (suffix : rest <:+ text) :
    openingTag text position (offsetOf text rest) = settled text position (readOpening rest) := by
  have behind : rest.dropWhile isTagNameCharacter <:+ text :=
    (List.dropWhile_suffix _).trans suffix
  simp only [openingTag, takeSpan_offsetOf _ suffix, pure_bind, (runsTo_readTag behind []).loop_eq,
    readOpening]
  cases tagged : readTag [] (rest.dropWhile isTagNameCharacter) with
  | none => rfl
  | some read =>
    obtain ⟨⟨attributes, selfClosing⟩, after⟩ := read
    have left : after <:+ text := (readTag_suffix tagged).trans behind
    simp only [Option.map_some, orError, ofExcept_ok, pure_bind, placed, rawContent_eq left]
    split
    · cases readRaw (nameOf (rest.takeWhile isTagNameCharacter)) after with
      | none => rfl
      | some content => rfl
    · rfl

/-- **The kind of what follows a `<`** is told with slices that can be taken. -/
theorem constructKind_eq (inner : List Char) :
    constructKind ('<' :: inner) = pure (start? inner) := by
  have angle : sliceFrom ('<' :: inner) 1 = (pure inner : Scanned MarkupError _) :=
    sliceFrom_cons rfl inner
  have told : '<' :: commentMark <+: '<' :: inner ↔ commentMark <+: inner := by
    simp
  rw [constructKind, angle, pure_bind]
  simp only [told]
  cases inner with
  | nil => rfl
  | cons c rest =>
    rw [start?]
    by_cases comment : commentMark <+: c :: rest
    · simp only [if_pos comment]
    · by_cases mark : c = '!' ∨ c = '?'
      · simp only [if_neg comment, if_pos mark]
      · by_cases slash : c = '/'
        · subst slash
          have name : sliceFrom ('<' :: '/' :: rest) 2 = (pure rest : Scanned MarkupError _) :=
            sliceFrom_append ['<', '/'] rest
          simp only [if_neg comment, if_neg mark, if_true, name, pure_bind]
        · simp only [if_neg comment, if_neg mark, if_neg slash]

/-- **A construct of any kind** is read as its rest is. -/
theorem construct_eq {inner : List Char} {kind : Start} (suffix : '<' :: inner <:+ text)
    (told : start? inner = some kind) :
    construct text (offsetOf text ('<' :: inner)) ('<' :: inner) kind =
      settled text (offsetOf text ('<' :: inner)) (kind.read inner) := by
  have angle : offsetOf text ('<' :: inner) + 1 = offsetOf text inner := offsetOf_add_cons suffix
  have inside : inner <:+ text := (List.suffix_cons '<' inner).trans suffix
  have tells := start?_eq_some_iff.mp told
  cases kind with
  | comment =>
    obtain ⟨after, rfl⟩ := tells
    have lead : sliceFrom ('<' :: (commentMark ++ after)) 4 =
        (pure after : Scanned MarkupError _) := sliceFrom_append ('<' :: commentMark) after
    have first : offsetOf text ('<' :: (commentMark ++ after)) + 4 = offsetOf text after :=
      offsetOf_add ('<' :: commentMark) suffix
    have behind : after <:+ text := (List.suffix_append commentMark after).trans inside
    have body : (commentMark ++ after).drop 3 = after := rfl
    rw [construct, lead, pure_bind, Start.read, body, placeOfText?]
    cases cut : cutAtText ['-', '-', '>'] after with
    | none => rfl
    | some parts =>
      obtain ⟨comment, rest⟩ := parts
      have whole : after = comment ++ (['-', '-', '>'] ++ rest) := by
        rw [cutAtText_eq_some cut, List.append_assoc]
      subst whole
      have content : slice ('<' :: (commentMark ++ (comment ++ (['-', '-', '>'] ++ rest)))) 4
          (4 + byteLength comment) = (pure comment : Scanned MarkupError _) :=
        slice_append ('<' :: commentMark) comment (['-', '-', '>'] ++ rest)
      have second := offsetOf_add comment behind
      have third : offsetOf text (['-', '-', '>'] ++ rest) + 3 = offsetOf text rest :=
        offsetOf_add ['-', '-', '>'] ((List.suffix_append comment _).trans behind)
      simp only [Option.map_some, found_some, pure_bind, content, settled, placed]
      refine congrArg pure (Prod.ext rfl ?_)
      simp only
      omega
  | declaration =>
    rw [construct, Start.read, placeOf?, cutAt, if_neg (by decide)]
    cases cut : cutAt '>' inner with
    | none => rfl
    | some parts =>
      obtain ⟨content, rest⟩ := parts
      obtain rfl := cutAt_eq_some cut
      have taken : slice ('<' :: (content ++ '>' :: rest)) 1 (1 + byteLength content) =
          (pure content : Scanned MarkupError _) :=
        slice_append ['<'] content ('>' :: rest)
      have behind : offsetOf text (content ++ '>' :: rest) + (byteLength content + 1) =
          offsetOf text rest := offsetOf_cut inside
      have width : byteLength ('<' :: content) = 1 + byteLength content := rfl
      simp only [Option.map_some, found_some, pure_bind, width, taken, settled, placed]
      refine congrArg pure (Prod.ext rfl ?_)
      simp only
      omega
  | closing =>
    obtain ⟨c, others, rfl, _⟩ := tells
    have slash : offsetOf text ('/' :: c :: others) + 1 = offsetOf text (c :: others) :=
      offsetOf_add_cons inside
    have behind : c :: others <:+ text := (List.suffix_cons '/' _).trans inside
    have further : offsetOf text ('<' :: '/' :: c :: others) + 2 = offsetOf text (c :: others) := by
      omega
    rw [construct, further, closingTag_eq behind]
    rfl
  | opening =>
    rw [construct, angle, openingTag_eq inside]
    rfl

end Agreement

end DataBind.Cursor
