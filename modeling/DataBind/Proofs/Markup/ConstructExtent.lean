/-
**Constructs end where they did, whatever follows.**

A construct of markup is told by at most three characters behind its `<`, and none of them is a `<`.
Its reader stops at the first end of the construct, so that what follows the end has no effect on
it: with other text behind, the same construct is read, and the same node is added.

* `Start`, `start?_eq_some_iff`: the kinds of constructs, and what tells them;
* `readConstruct_eq`: a construct is read by the reader of its kind;
* `start?_append`: a `<` behind a text tells no other construct in it;
* `readRaw_append_iff`, `closing_rest_append_iff`, `opening_rest_append_iff`: what a reader leaves
  with a `<` behind;
* `readConstruct_append_iff`: a construct that ends does so with a `<` behind what it leaves.
-/

import DataBind.Proofs.Markup.Readable
import DataBind.Proofs.Markup.TagExtent

namespace DataBind.Markup

open DataBind.Text

/-! ### What tells a construct -/

/-- The kinds of constructs. -/
inductive Start where
  | comment
  | declaration
  | closing
  | opening

/-- What tells a comment. -/
def commentMark : List Char :=
  ['!', '-', '-']

/-- The construct that a text behind a `<` starts with. -/
def start? : List Char → Option Start
  | [] => none
  | c :: rest =>
    if commentMark <+: c :: rest then some .comment
    else if c = '!' ∨ c = '?' then some .declaration
    else if c = '/' then if rest.head?.any Char.isAlpha then some .closing else none
    else if c.isAlpha then some .opening
    else none

/-- The reader of a kind of constructs. -/
def Start.read (text : List Char) : Start → Except Unterminated (Event × List Char)
  | .comment =>
    match cutAtText ['-', '-', '>'] (text.drop 3) with
    | none => .error .comment
    | some (inner, rest) => .ok (.comment (String.ofList inner), rest)
  | .declaration =>
    match cutAt '>' text with
    | none => .error .declaration
    | some (inner, rest) => .ok (.declaration (String.ofList inner), rest)
  | .closing => readClosing text.tail
  | .opening => readOpening text

/-- **A construct is read by the reader of its kind.** -/
theorem readConstruct_eq (text : List Char) :
    readConstruct text = (start? text).map (Start.read text) := by
  unfold readConstruct
  split
  · rename_i rest
    have told : commentMark <+: '!' :: '-' :: '-' :: rest := ⟨rest, rfl⟩
    rw [start?, if_pos told]
    rfl
  · rename_i c rest apart
    have other : ¬ commentMark <+: c :: rest := by
      rintro ⟨others, same⟩
      cases same
      exact apart others rfl rfl
    rw [start?, if_neg other]
    by_cases mark : c = '!' ∨ c = '?'
    · rw [if_pos mark, if_pos mark]
      rfl
    · rw [if_neg mark, if_neg mark]
      by_cases slash : c = '/'
      · rw [if_pos slash, if_pos slash]
        cases rest with
        | nil => rfl
        | cons d others =>
          rw [List.head?_cons, Option.any_some]
          by_cases alpha : d.isAlpha = true
          · rw [if_pos alpha]
            simp only [if_pos alpha]
            rfl
          · rw [if_neg alpha]
            simp only [if_neg alpha]
            rfl
      · rw [if_neg slash, if_neg slash]
        split <;> rfl
  · rfl

/-- A needle without a character lies before it. -/
theorem prefix_of_not_mem {needle text rest : List Char} {c : Char} (free : c ∉ needle)
    (starts : needle <+: text ++ c :: rest) : needle <+: text := by
  rcases List.prefix_or_prefix_of_prefix starts (List.prefix_append text _) with
    inside | ⟨tail, rfl⟩
  · exact inside
  · rw [List.prefix_append_right_inj] at starts
    cases tail with
    | nil => rw [List.append_nil]
    | cons d tail =>
      obtain ⟨others, same⟩ := starts
      cases same
      exact absurd (List.mem_append_right text List.mem_cons_self) free

/-- **A `<` behind a text tells no other construct in it.** -/
theorem start?_append (text rest : List Char) : start? (text ++ '<' :: rest) = start? text := by
  have comment : commentMark <+: text ++ '<' :: rest ↔ commentMark <+: text :=
    ⟨prefix_of_not_mem (by decide), fun starts => starts.trans (List.prefix_append text _)⟩
  cases text with
  | nil =>
    have other : ¬ commentMark <+: '<' :: rest := by simp [commentMark]
    show start? ('<' :: rest) = none
    rw [start?, if_neg other]
    rfl
  | cons c others =>
    have head : (others ++ '<' :: rest).head?.any Char.isAlpha = others.head?.any Char.isAlpha := by
      cases others <;> rfl
    rw [List.cons_append] at comment ⊢
    rw [start?, start?, if_congr comment rfl rfl, head]

/-- What the text behind a `<` starts with for a kind of constructs. -/
def Start.Tells (text : List Char) : Start → Prop
  | .comment => commentMark <+: text
  | .declaration => (∃ c ∈ text.head?, c = '!' ∨ c = '?') ∧ ¬ commentMark <+: text
  | .closing => ∃ c rest, text = '/' :: c :: rest ∧ c.isAlpha = true
  | .opening => ∃ c ∈ text.head?, c.isAlpha = true

/-- **What tells a construct.** -/
theorem start?_eq_some_iff {kind : Start} {text : List Char} :
    start? text = some kind ↔ kind.Tells text := by
  cases text with
  | nil => cases kind <;> simp [start?, Start.Tells, commentMark]
  | cons c rest =>
    have letters : c = '!' ∨ c = '?' ∨ c = '/' → c.isAlpha = false := by
      rintro (rfl | rfl | rfl) <;> decide
    rw [start?]
    by_cases comment : commentMark <+: c :: rest
    · obtain rfl : c = '!' := by
        obtain ⟨others, same⟩ := comment
        exact (List.cons.inj same).1.symm
      rw [if_pos comment]
      cases kind <;> simp [Start.Tells, comment]
    · rw [if_neg comment]
      by_cases mark : c = '!' ∨ c = '?'
      · have alpha := letters (mark.imp_right Or.inl)
        have slash : c ≠ '/' := by
          rintro rfl
          simp at mark
        rw [if_pos mark]
        cases kind <;> simp [Start.Tells, comment, mark, alpha, slash]
      · rw [if_neg mark]
        by_cases slash : c = '/'
        · subst slash
          rw [if_pos rfl]
          cases rest with
          | nil => cases kind <;> simp [Start.Tells, comment]
          | cons d others =>
            have alpha := letters (Or.inr (Or.inr rfl))
            by_cases letter : d.isAlpha = true
            · cases kind <;> simp [Start.Tells, comment, alpha, letter]
            · cases kind <;> simp [Start.Tells, comment, alpha, letter]
        · rw [if_neg slash]
          by_cases alpha : c.isAlpha = true
          · cases kind <;> simp [Start.Tells, comment, mark, slash, alpha]
          · cases kind <;> simp [Start.Tells, comment, mark, slash, alpha]

/-! ### Readers -/

/-- **What follows the end of a span has no effect on it.** -/
theorem dropWhile_append_iff {p : Char → Bool} {text rest : List Char} (nonempty : rest ≠ [])
    (more : List Char) : (text ++ more).dropWhile p = rest ++ more ↔ text.dropWhile p = rest := by
  rw [List.dropWhile_append]
  by_cases whole : (text.dropWhile p).isEmpty = true
  · rw [if_pos whole, List.isEmpty_iff.mp whole]
    refine ⟨fun same => ?_, fun empty => absurd empty.symm nonempty⟩
    have shorter := dropWhile_length_le p more
    have filled := List.length_pos_iff.mpr nonempty
    rw [same, List.length_append] at shorter
    omega
  · rw [if_neg whole, List.append_left_inj]

theorem takeWhile_append_of_ne_nil {p : Char → Bool} {text : List Char}
    (nonempty : text.dropWhile p ≠ []) (more : List Char) :
    (text ++ more).takeWhile p = text.takeWhile p := by
  have longer := (dropWhile_append_iff nonempty more).mpr rfl
  have whole := List.takeWhile_append_dropWhile (p := p) (l := text ++ more)
  rw [longer, ← List.append_assoc, List.append_left_inj] at whole
  conv at whole => rhs; rw [← List.takeWhile_append_dropWhile (p := p) (l := text)]
  exact List.append_cancel_right whole

variable {tag content : String} {text rest : List Char}

/-- What follows a raw text element has no effect on its content. -/
theorem readRaw_append_iff (more : List Char) :
    readRaw tag (text ++ more) = some (content, rest ++ more) ↔
      readRaw tag text = some (content, rest) := by
  rw [readRaw_eq_some_iff, readRaw_eq_some_iff]
  refine exists_congr fun name => exists_congr fun tail => ?_
  have left : '<' :: '/' :: (name ++ (tail ++ '>' :: (rest ++ more))) =
      '<' :: '/' :: (name ++ (tail ++ '>' :: rest)) ++ more := by
    simp
  rw [left, ← List.append_assoc content.toList, List.append_left_inj]
  refine and_congr_right fun _ => and_congr_right fun spelled => and_congr_right fun _ => ?_
  refine UpTo.congr_rest fun back => ?_
  rw [SpellsEnd, SpellsEnd, ← List.append_assoc, asciiLower, List.map_append]
  refine prefix_append_iff ?_ _
  rw [← spelled]
  simp [asciiLower]
  omega

/-- What an end tag leaves: all behind the next `>`. -/
theorem closing_rest (text : List Char) : (readClosing text).toOption.map Prod.snd =
    (cutAt '>' (text.dropWhile isTagNameCharacter)).map Prod.snd := by
  unfold readClosing
  cases cutAt '>' (text.dropWhile isTagNameCharacter) <;> rfl

/-- What is left behind the content that follows a start tag, if the content is no markup. -/
def afterContent? (tag : String) (closes : Bool) (text : List Char) : Option (List Char) :=
  if isRawText tag && !closes then (readRaw tag text).map Prod.snd else some text

/-- What a start tag leaves: all behind its end, or behind the content of its element. -/
theorem opening_rest (text : List Char) : (readOpening text).toOption.map Prod.snd =
    (endOfTag .between (text.dropWhile isTagNameCharacter)).bind fun (closes, after) =>
      afterContent? (nameOf (text.takeWhile isTagNameCharacter)) closes after := by
  rw [← readTag_eq_endOfTag []]
  unfold readOpening
  simp only
  cases readTag [] (text.dropWhile isTagNameCharacter) with
  | none => rfl
  | some taken =>
    obtain ⟨⟨attributes, closes⟩, after⟩ := taken
    simp only [Option.map_some, Option.bind_some, afterContent?]
    by_cases raw : (isRawText (nameOf (text.takeWhile isTagNameCharacter)) && !closes) = true
    · rw [if_pos raw, if_pos raw]
      cases readRaw (nameOf (text.takeWhile isTagNameCharacter)) after <;> rfl
    · rw [if_neg raw, if_neg raw]
      rfl

theorem map_snd_eq_some_iff {α : Type} {found : Option (α × List Char)} {rest : List Char} :
    found.map Prod.snd = some rest ↔ ∃ front, found = some (front, rest) := by
  cases found with
  | none => simp
  | some taken => exact ⟨fun same => ⟨taken.1, by cases same; rfl⟩, fun ⟨front, same⟩ => by
      cases same; rfl⟩

theorem closing_rest_append_iff (more : List Char) :
    (readClosing (text ++ more)).toOption.map Prod.snd = some (rest ++ more) ↔
      (readClosing text).toOption.map Prod.snd = some rest := by
  rw [closing_rest, closing_rest, map_snd_eq_some_iff, map_snd_eq_some_iff]
  refine exists_congr fun gap => ?_
  rw [cutAt_eq_some_iff, cutAt_eq_some_iff, ← List.cons_append, ← List.append_assoc,
    dropWhile_append_iff (by simp)]

theorem afterContent?_suffix {closes : Bool}
    (left : afterContent? tag closes text = some rest) : rest <:+ text := by
  unfold afterContent? at left
  split at left
  · obtain ⟨content, read⟩ := map_snd_eq_some_iff.mp left
    exact readRaw_suffix read
  · cases left
    exact List.suffix_rfl

theorem afterContent?_append_iff {closes : Bool} (more : List Char) :
    afterContent? tag closes (text ++ more) = some (rest ++ more) ↔
      afterContent? tag closes text = some rest := by
  unfold afterContent?
  split
  · rw [map_snd_eq_some_iff, map_snd_eq_some_iff]
    exact exists_congr fun _ => readRaw_append_iff more
  · rw [Option.some.injEq, Option.some.injEq, List.append_left_inj]

theorem opening_rest_append_iff (more : List Char) :
    (readOpening (text ++ more)).toOption.map Prod.snd = some (rest ++ more) ↔
      (readOpening text).toOption.map Prod.snd = some rest := by
  rw [opening_rest, opening_rest]
  by_cases whole : text.dropWhile isTagNameCharacter = []
  · -- the whole text is a name, and what would follow the tag is too long
    have named : (text ++ more).dropWhile isTagNameCharacter =
        more.dropWhile isTagNameCharacter := by
      rw [List.dropWhile_append, if_pos (List.isEmpty_iff.mpr whole)]
    rw [whole, named]
    refine ⟨fun left => ?_, nofun⟩
    obtain ⟨⟨closes, after⟩, found, left⟩ := Option.bind_eq_some_iff.mp left
    have inside := (afterContent?_suffix left).length_le
    have shorter := endOfTag_length found
    have start := dropWhile_length_le isTagNameCharacter more
    rw [List.length_append] at inside
    omega
  · rw [(dropWhile_append_iff whole more).mpr rfl, takeWhile_append_of_ne_nil whole,
      Option.bind_eq_some_iff, Option.bind_eq_some_iff]
    constructor
    · rintro ⟨⟨closes, after⟩, found, left⟩
      obtain ⟨front, same⟩ := afterContent?_suffix left
      rw [← List.append_assoc] at same
      subst same
      exact ⟨(closes, front ++ rest), (endOfTag_append_iff more).mp found,
        (afterContent?_append_iff more).mp left⟩
    · rintro ⟨⟨closes, after⟩, found, left⟩
      exact ⟨(closes, after ++ more), (endOfTag_append_iff more).mpr found,
        (afterContent?_append_iff more).mpr left⟩

/-! ### Constructs -/

/-- What is left behind a construct of a kind, if it ends. -/
def Start.after? (kind : Start) (text : List Char) : Option (List Char) :=
  (kind.read text).toOption.map Prod.snd

/-- **What follows a construct has no effect on it.** -/
theorem Start.after?_append_iff {kind : Start} (told : start? text = some kind)
    (more : List Char) :
    kind.after? (text ++ more) = some (rest ++ more) ↔ kind.after? text = some rest := by
  have tells := start?_eq_some_iff.mp told
  cases kind with
  | comment =>
    obtain ⟨others, rfl⟩ := tells
    have read : ∀ text, Start.comment.after? (commentMark ++ text) =
        (cutAtText ['-', '-', '>'] text).map Prod.snd := by
      intro text
      show (Start.read ('!' :: '-' :: '-' :: text) .comment).toOption.map Prod.snd = _
      unfold Start.read
      simp only [List.drop_succ_cons, List.drop_zero]
      cases cutAtText ['-', '-', '>'] text <;> rfl
    rw [List.append_assoc, read, read, map_snd_eq_some_iff, map_snd_eq_some_iff]
    exact exists_congr fun _ => cutAtText_append_iff (by simp) more
  | declaration =>
    have read : ∀ text, Start.declaration.after? text = (cutAt '>' text).map Prod.snd := by
      intro text
      unfold Start.after? Start.read
      cases cutAt '>' text <;> rfl
    rw [read, read, map_snd_eq_some_iff, map_snd_eq_some_iff]
    exact exists_congr fun _ => cutAt_append_iff more
  | closing =>
    obtain ⟨c, others, rfl, _⟩ := tells
    exact closing_rest_append_iff more
  | opening => exact opening_rest_append_iff more

/-- The number of nodes that a construct of a kind adds. -/
def Start.nodes : Start → Nat
  | .closing => 0
  | _ => 1

/-- A construct adds the nodes of its kind. -/
theorem Start.nodes_eq {kind : Start} {event : Event}
    (read : kind.read text = .ok (event, rest)) :
    event.content?.toList.length = kind.nodes := by
  unfold Start.read at read
  cases kind with
  | comment | declaration =>
    simp only at read
    split at read
    · cases read
    · cases read
      rfl
  | closing =>
    simp only [readClosing] at read
    split at read
    · cases read
    · cases read
      rfl
  | opening =>
    simp only [readOpening] at read
    split at read
    · cases read
    · split at read
      · split at read
        · cases read
        · cases read
          rfl
      · cases read
        rfl

/-- A construct is left behind in a text just if it is read there, with the nodes of its kind. -/
theorem exists_readConstruct_iff {nodes : Nat} :
    (∃ event, readConstruct text = some (.ok (event, rest)) ∧
      event.content?.toList.length = nodes) ↔
      ∃ kind, start? text = some kind ∧ kind.after? text = some rest ∧ kind.nodes = nodes := by
  constructor
  · rintro ⟨event, read, count⟩
    rw [readConstruct_eq, Option.map_eq_some_iff] at read
    obtain ⟨kind, told, read⟩ := read
    refine ⟨kind, told, ?_, (Start.nodes_eq read).symm.trans count⟩
    rw [Start.after?, read]
    rfl
  · rintro ⟨kind, told, left, count⟩
    unfold Start.after? at left
    cases read : kind.read text with
    | error cause =>
      rw [read] at left
      cases left
    | ok taken =>
      rw [read] at left
      cases left
      refine ⟨taken.1, ?_, (Start.nodes_eq read).trans count⟩
      rw [readConstruct_eq, told, Option.map_some, read]

/-- **What starts no construct starts none** with a `<` behind it. -/
theorem readConstruct_append_eq_none_iff (more : List Char) :
    readConstruct (text ++ '<' :: more) = none ↔ readConstruct text = none := by
  rw [readConstruct_eq, readConstruct_eq, Option.map_eq_none_iff, Option.map_eq_none_iff,
    start?_append]

/-- **A construct that ends does so** with a `<` behind what it leaves, and adds as many nodes. -/
theorem readConstruct_append_iff {nodes : Nat} (more : List Char) :
    (∃ event, readConstruct (text ++ '<' :: more) = some (.ok (event, rest ++ '<' :: more)) ∧
      event.content?.toList.length = nodes) ↔
      ∃ event, readConstruct text = some (.ok (event, rest)) ∧
        event.content?.toList.length = nodes := by
  rw [exists_readConstruct_iff, exists_readConstruct_iff]
  refine exists_congr fun kind => ?_
  rw [start?_append]
  exact and_congr_right fun told => and_congr_left fun _ => Start.after?_append_iff told _

end DataBind.Markup
