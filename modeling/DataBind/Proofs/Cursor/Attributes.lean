/-
**The cursor among attributes.**

Attributes are read with a cursor that moves over white space, names, values and marks. What is read
is what the reader of rests reads, and the cursor ends up where the rest starts.

* `attributeValue_eq`, `optionalValue_eq`, `attributeEntry_eq`: an attribute under the cursor;
* `eq_equals`: only an equals sign can stand where an attribute has no name;
* `runsTo_readTag`: the loop over the attributes comes to an end wherever it starts, with the cursor
  strictly further on after every attribute and every stray slash.
-/

import DataBind.Proofs.Cursor.Slice
import DataBind.Proofs.Markup.Readable

namespace DataBind.Cursor

open DataBind.Text DataBind.Markup Scanned

/-- What has been read, with the cursor behind it. -/
def placed {α : Type} (text : List Char) (read : α × List Char) : α × Nat :=
  (read.1, offsetOf text read.2)

/-! ### Attributes -/

section Attributes

variable (text : List Char) (unended : MarkupError)

/-- Reads the value of an attribute without quotes. -/
def plainValue (cursor : Nat) : Scanned MarkupError (String × Nat) := do
  let (value, cursor) ← takeSpan isPlainValueCharacter text cursor
  return (String.ofList value, cursor)

/-- Reads the value of an attribute, after its equals sign. -/
def attributeValue (cursor : Nat) : Scanned MarkupError (String × Nat) := do
  let cursor ← skipBlank text cursor
  let rest ← sliceFrom text cursor
  match rest with
  | quote :: _ =>
    if quote = '"' ∨ quote = '\x27' then
      let inner ← sliceFrom rest 1
      let length ← found unended (placeOf? quote inner)
      let value ← slice rest 1 (length + 1)
      return (String.ofList value, cursor + (length + 2))
    else plainValue text cursor
  | [] => plainValue text cursor

/-- Reads the value of an attribute, if it has one, after its name. -/
def optionalValue (cursor : Nat) : Scanned MarkupError (String × Nat) := do
  let cursor ← skipBlank text cursor
  let rest ← sliceFrom text cursor
  match rest with
  | '=' :: _ => attributeValue text unended (cursor + 1)
  | _ => return ("", cursor)

/-- Reads the name of an attribute; a stray equals sign is a name. -/
def attributeKey (cursor : Nat) : Scanned MarkupError (List Char × Nat) := do
  let rest ← sliceFrom text cursor
  let (key, cursor) ← takeSpan isAttributeNameCharacter text cursor
  if key.isEmpty then
    let key ← sliceTo rest 1
    return (key, cursor + 1)
  else return (key, cursor)

/-- Reads an attribute. -/
def attributeEntry (cursor : Nat) : Scanned MarkupError (Attribute × Nat) := do
  let (key, cursor) ← attributeKey text cursor
  let (value, cursor) ← optionalValue text unended cursor
  return ((nameOf key, value), cursor)

/-- Reads what comes next in a start tag, given the rest at the cursor and the attributes read
before. -/
def tagPiece (cursor : Nat) (attributes : List Attribute) : List Char →
    Scanned MarkupError ((Nat × List Attribute) ⊕ ((List Attribute × Bool) × Nat))
  | [] => fault unended
  | '>' :: _ => return .inr ((attributes, false), cursor + 1)
  | '/' :: '>' :: _ => return .inr ((attributes, true), cursor + 2)
  | '/' :: _ => return .inl (cursor + 1, attributes)
  | _ => do
    let (entry, cursor) ← attributeEntry text unended cursor
    let known := attributes.any fun (name, _) => name == entry.1
    return .inl (cursor, if known then attributes else attributes ++ [entry])

/-- One iteration of the loop over the attributes of a start tag. -/
def tagStep : Nat × List Attribute →
    Scanned MarkupError ((Nat × List Attribute) ⊕ ((List Attribute × Bool) × Nat))
  | (cursor, attributes) => do
    let cursor ← skipBlank text cursor
    let rest ← sliceFrom text cursor
    tagPiece text unended cursor attributes rest

end Attributes

section Agreement

variable {text rest : List Char} {unended : MarkupError}

theorem plainValue_eq (suffix : rest <:+ text) :
    plainValue text (offsetOf text rest) =
      pure (String.ofList (rest.takeWhile isPlainValueCharacter),
        offsetOf text (rest.dropWhile isPlainValueCharacter)) := by
  simp only [plainValue, takeSpan_offsetOf _ suffix, pure_bind]

theorem attributeValue_eq (suffix : rest <:+ text) :
    attributeValue text unended (offsetOf text rest) =
      found unended ((readValue? rest).map (placed text)) := by
  have solid := (trimStart_suffix rest).trans suffix
  rw [attributeValue, skipBlank_offsetOf suffix, pure_bind, sliceFrom_offsetOf solid, pure_bind,
    readValue?]
  cases start : trimStart rest with
  | nil => exact plainValue_eq (start ▸ solid)
  | cons quote inner =>
    rw [start] at solid
    by_cases quoted : quote = '"' ∨ quote = '\x27'
    · have narrow : quote.utf8Size = 1 := by
        rcases quoted with rfl | rfl <;> rfl
      simp only [if_pos quoted, sliceFrom_cons narrow, pure_bind, placeOf?]
      cases cut : cutAt quote inner with
      | none => rfl
      | some parts =>
        obtain ⟨value, after⟩ := parts
        obtain rfl := cutAt_eq_some cut
        have first := offsetOf_add_cons solid
        have behind := offsetOf_cut ((List.suffix_cons quote _).trans solid)
        simp only [Option.map_some, found_some, pure_bind, slice_cons narrow]
        refine congrArg pure (Prod.ext rfl ?_)
        simp only [placed]
        omega
    · simp only [if_neg quoted]
      exact plainValue_eq solid

theorem optionalValue_eq (suffix : rest <:+ text) :
    optionalValue text unended (offsetOf text rest) =
      found unended ((readOptionalValue? rest).map (placed text)) := by
  have solid := (trimStart_suffix rest).trans suffix
  rw [optionalValue, skipBlank_offsetOf suffix, pure_bind, sliceFrom_offsetOf solid, pure_bind]
  split
  · rename_i after start
    rw [readOptionalValue?, start]
    rw [start] at solid
    have further : offsetOf text ('=' :: after) + 1 = offsetOf text after := offsetOf_add_cons solid
    rw [further, attributeValue_eq ((List.suffix_cons '=' after).trans solid)]
    rfl
  · rename_i other
    rw [readOptionalValue?]
    split
    · rename_i after start
      exact absurd start (other after)
    · rfl

/-- Behind white space, nothing but an equals sign can start an attribute without being part of its
name. -/
theorem eq_equals {c : Char} (solid : isBlank c = false) (slash : c ≠ '/') (angle : c ≠ '>')
    (stray : isAttributeNameCharacter c = false) : c = '=' := by
  simpa [isAttributeNameCharacter, solid, slash, angle] using stray

/-- **An attribute under the cursor** is the one that its rest starts with. -/
theorem attributeEntry_eq {c : Char} (suffix : c :: rest <:+ text) (solid : isBlank c = false)
    (slash : c ≠ '/') (angle : c ≠ '>') :
    attributeEntry text unended (offsetOf text (c :: rest)) =
      found unended ((readAttribute? c rest).map (placed text)) := by
  rw [attributeEntry, attributeKey, sliceFrom_offsetOf suffix, pure_bind,
    takeSpan_offsetOf _ suffix, pure_bind, readAttribute?]
  by_cases named : isAttributeNameCharacter c = true
  · have key : ((c :: rest).takeWhile isAttributeNameCharacter).isEmpty = false := by
      simp [named]
    simp only [key, Bool.false_eq_true, if_false, pure_bind,
      optionalValue_eq ((List.dropWhile_suffix _).trans suffix)]
    cases readOptionalValue? ((c :: rest).dropWhile isAttributeNameCharacter) with
    | none => rfl
    | some read => rfl
  · obtain rfl := eq_equals solid slash angle (by simpa using named)
    have key : ('=' :: rest).takeWhile isAttributeNameCharacter = [] := rfl
    have stay : ('=' :: rest).dropWhile isAttributeNameCharacter = '=' :: rest := rfl
    have first : sliceTo ('=' :: rest) 1 = (pure ['='] : Scanned MarkupError _) :=
      sliceTo_append ['='] rest
    have further : offsetOf text ('=' :: rest) + 1 = offsetOf text rest := offsetOf_add_cons suffix
    simp only [key, stay, List.isEmpty_nil, if_true, first, pure_bind, further,
      optionalValue_eq ((List.suffix_cons '=' rest).trans suffix)]
    cases readOptionalValue? rest with
    | none => rfl
    | some read => rfl

/-! ### The loop over the attributes -/

/-- An iteration reads what comes behind the white space. -/
theorem tagStep_eq (suffix : rest <:+ text) (attributes : List Attribute) :
    tagStep text unended (offsetOf text rest, attributes) =
      tagPiece text unended (offsetOf text (trimStart rest)) attributes (trimStart rest) := by
  rw [tagStep, skipBlank_offsetOf suffix, pure_bind,
    sliceFrom_offsetOf ((trimStart_suffix rest).trans suffix), pure_bind]

theorem tagPiece_attribute {c : Char} (suffix : c :: rest <:+ text) (solid : isBlank c = false)
    (slash : c ≠ '/') (angle : c ≠ '>') (attributes : List Attribute) :
    tagPiece text unended (offsetOf text (c :: rest)) attributes (c :: rest) =
      found unended ((readAttribute? c rest).map (placed text)) >>= fun (entry, cursor) =>
        let known := attributes.any fun (name, _) => name == entry.1
        pure (.inl (cursor, if known then attributes else attributes ++ [entry])) := by
  rw [← attributeEntry_eq suffix solid slash angle, tagPiece]
  · exact nofun
  · exact fun _ same => angle (List.cons.inj same).1
  · exact fun _ same => slash (List.cons.inj same).1
  · exact fun _ same => slash (List.cons.inj same).1

/-- What is read behind white space leaves a rest that starts further on. -/
theorem offsetOf_lt_of_trimStart {ahead after : List Char} (suffix : rest <:+ text)
    (inside : trimStart rest = ahead) (behind : after <:+ ahead)
    (shorter : after.length < ahead.length) :
    after <:+ text ∧ offsetOf text rest < offsetOf text after := by
  have whole : ahead <:+ rest := inside ▸ trimStart_suffix rest
  have further := behind.trans whole
  have fewer := Nat.lt_of_lt_of_le shorter whole.length_le
  exact ⟨further.trans suffix, offsetOf_lt suffix further fewer⟩

/-- **The loop over the attributes of a start tag comes to an end** wherever it starts, with what its
rest is read as. -/
theorem runsTo_readTag (suffix : rest <:+ text) (attributes : List Attribute) :
    RunsTo Prod.fst (tagStep text unended) (offsetOf text rest, attributes)
      (orError unended ((readTag attributes rest).map (placed text))) := by
  fun_induction readTag attributes rest with
  | case1 attributes rest inside =>
    refine .fails ?_
    rw [tagStep_eq suffix, inside]
    rfl
  | case2 attributes rest after inside =>
    have ahead : '>' :: after <:+ text := inside ▸ (trimStart_suffix rest).trans suffix
    refine .ends ?_
    rw [tagStep_eq suffix, inside, tagPiece, placed, ← offsetOf_add_cons ahead]
    rfl
  | case3 attributes rest after inside =>
    have ahead : '/' :: '>' :: after <:+ text := inside ▸ (trimStart_suffix rest).trans suffix
    refine .ends ?_
    rw [tagStep_eq suffix, inside, tagPiece, placed, ← offsetOf_add ['/', '>'] ahead]
    rfl
  | case4 attributes rest after apart inside _ ih =>
    have ahead : '/' :: after <:+ text := inside ▸ (trimStart_suffix rest).trans suffix
    obtain ⟨further, forward⟩ := offsetOf_lt_of_trimStart suffix inside (List.suffix_cons '/' after)
      (Nat.lt_succ_self _)
    refine .goesOn ?_ forward (ih further)
    rw [tagStep_eq suffix, inside, tagPiece, ← offsetOf_add_cons ahead]
    · rfl
    · exact apart
  | case5 attributes rest c after angle _ slash inside missing =>
    have ahead : c :: after <:+ text := inside ▸ (trimStart_suffix rest).trans suffix
    refine .fails ?_
    rw [tagStep_eq suffix, inside,
      tagPiece_attribute ahead (solid_of_trimStart inside) slash angle, missing]
    rfl
  | case6 attributes rest c after angle _ slash inside entry left named _ shorter known ih =>
    have ahead : c :: after <:+ text := inside ▸ (trimStart_suffix rest).trans suffix
    obtain ⟨further, forward⟩ := offsetOf_lt_of_trimStart suffix inside
      (readAttribute?_suffix named) (Nat.lt_succ_of_le shorter)
    refine .goesOn ?_ forward (ih further)
    rw [tagStep_eq suffix, inside,
      tagPiece_attribute ahead (solid_of_trimStart inside) slash angle, named]
    rfl

end Agreement

end DataBind.Cursor
