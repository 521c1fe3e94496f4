/-
**Where a raw text element ends.**

Every raw text element of a markup stands behind its start tag and reaches up to the first place
that spells its end. What follows the name there is not looked at, so that a longer name that only
begins with the name of the element ends it too. The reader of end tags would not take such a place
for an end tag of the element.

* `exists_of_readOpening`: what a raw text element is read from;
* `readConstruct_spelled`: its name in any case behind `</` is read as an end tag elsewhere;
* `raw_extent`: the place and the extent of every raw text element, and the condition under which
  it ends at an end tag of its name.
-/

import DataBind.Proofs.Markup.Readable

namespace DataBind.Markup

open DataBind.Text

variable {tag content : String} {attributes : List Attribute}

/-- The names of raw text elements consist of characters of names. -/
theorem isTagNameCharacter_of_isRawText (raw : isRawText tag = true) :
    ∀ c ∈ tag.toList, isTagNameCharacter c = true := by
  simp only [isRawText, rawTextTags, List.contains_eq_mem, List.mem_cons, List.not_mem_nil,
    or_false, decide_eq_true_eq] at raw
  rcases raw with rfl | rfl <;> exact List.all_eq_true.mp (by decide)

/-- A raw text element is read from a start tag and the content behind it. -/
theorem exists_of_readOpening {text rest : List Char}
    (read : readOpening text = .ok (.raw tag attributes content, rest)) :
    isRawText tag = true ∧ nameOf (text.takeWhile isTagNameCharacter) = tag ∧
      ∃ inner, readTag [] (text.dropWhile isTagNameCharacter) = some ((attributes, false), inner) ∧
        readRaw tag inner = some (content, rest) := by
  unfold readOpening at read
  simp only at read
  split at read
  · cases read
  · rename_i found selfClosing inner tagged
    split at read
    · rename_i raw
      rw [Bool.and_eq_true, Bool.not_eq_true'] at raw
      obtain ⟨raw, rfl⟩ := raw
      split at read
      · cases read
      · rename_i taken
        cases read
        exact ⟨raw, rfl, inner, tagged, taken⟩
    · cases read

/-- So is every construct that is a raw text element. -/
theorem readOpening_of_readConstruct {text rest : List Char}
    (read : readConstruct text = some (.ok (.raw tag attributes content, rest))) :
    readOpening text = .ok (.raw tag attributes content, rest) := by
  unfold readConstruct at read
  split at read
  · rw [Option.some.injEq] at read
    split at read <;> cases read
  · split at read
    · rw [Option.some.injEq] at read
      split at read <;> cases read
    · split at read
      · split at read
        · split at read
          · rw [Option.some.injEq] at read
            unfold readClosing at read
            simp only at read
            split at read <;> cases read
          · cases read
        · cases read
      · split at read
        · exact Option.some.inj read
        · cases read
  · cases read

/-- Behind `</`, what starts with the name of a raw text element in any case is read as an end
tag. -/
theorem readConstruct_spelled (raw : isRawText tag = true) {name : List Char}
    (spelled : asciiLower name = tag.toList) (after : List Char) :
    readConstruct ('/' :: (name ++ after)) = some (readClosing (name ++ after)) := by
  have letter : ∃ c ∈ tag.toList.head?, c.isAlpha = true := by
    simp only [isRawText, rawTextTags, List.contains_eq_mem, List.mem_cons, List.not_mem_nil,
      or_false, decide_eq_true_eq] at raw
    rcases raw with rfl | rfl <;> exact ⟨'s', by decide, by decide⟩
  obtain ⟨d, first, lower⟩ := letter
  rw [← spelled] at first
  cases name with
  | nil => cases first
  | cons c others =>
    cases first
    have alpha : c.isAlpha = true := by
      by_contra other
      rw [Bool.not_eq_true] at other
      rw [toLower_of_not_isAlpha other, other] at lower
      cases lower
    show (if c.isAlpha = true then _ else _) = _
    rw [if_pos alpha]

/-- **The extent of raw text.** A raw text element of a markup stands behind a start tag that does
not close itself. Its content reaches up to the first place that spells the end, and the element up
to the next `>`. That the content reaches up to the first end tag of the name, and that the reader
of end tags takes what follows the content for one, is the case just if no character of a name
follows the name. -/
theorem raw_extent {markup : String} (read : .raw tag attributes content ∈ (events markup).1) :
    ∃ text left name tail rest : List Char,
      '<' :: text <:+ markup.toList ∧ isRawText tag = true ∧
      nameOf (text.takeWhile isTagNameCharacter) = tag ∧
      readTag [] (text.dropWhile isTagNameCharacter) =
        some ((attributes, false), content.toList ++ left) ∧
      left = '<' :: '/' :: (name ++ (tail ++ '>' :: rest)) ∧
      asciiLower name = tag.toList ∧ '>' ∉ tail ∧
      UpTo (SpellsEnd tag) content.toList left ∧
      (UpTo (EndTag tag) content.toList left ↔ ∀ c ∈ tail.head?, isTagNameCharacter c = false) ∧
      (readConstruct left.tail = some (.ok (.closing tag, rest)) ↔
        ∀ c ∈ tail.head?, isTagNameCharacter c = false) := by
  rcases mem_scan_cases read with ⟨_, wrong, _⟩ | ⟨text, rest, place, construct⟩
  · cases wrong
  obtain ⟨raw, named, inner, tagged, taken⟩ :=
    exists_of_readOpening (readOpening_of_readConstruct construct)
  obtain ⟨name, tail, rfl, spelled, absent, reaches⟩ := readRaw_eq_some_iff.mp taken
  have ends : EndTag tag ('<' :: '/' :: (name ++ (tail ++ '>' :: rest))) ↔
      ∀ c ∈ tail.head?, isTagNameCharacter c = false := by
    rw [endTag_append spelled]
    cases tail with
    | nil => simp [show isTagNameCharacter '>' = false by decide]
    | cons c others => simp
  refine ⟨text, _, name, tail, rest, place, raw, named, tagged, rfl, spelled, absent, reaches,
    (reaches.narrow_iff fun _ found => found.1).trans ends, ?_⟩
  rw [← ends, ← readClosing_eq_closing_iff spelled (isTagNameCharacter_of_isRawText raw) absent,
    List.tail_cons, readConstruct_spelled raw spelled, Option.some.injEq]

/-- The extent of a script that ends at an end tag. -/
theorem raw_extent_script :
    Event.raw "script" [] "a" ∈ (events "<script>a</SCRIPT >b").1 ∧
      ∃ left rest, UpTo (SpellsEnd "script") "a".toList left ∧
        (readConstruct left.tail = some (.ok (.closing "script", rest)) ↔
          UpTo (EndTag "script") "a".toList left) := by
  have read : Event.raw "script" [] "a" ∈ (events "<script>a</SCRIPT >b").1 := by
    decide +kernel
  obtain ⟨_, left, _, _, rest, _, _, _, _, _, _, _, reaches, ends, closes⟩ := raw_extent read
  exact ⟨read, left, rest, reaches, closes.trans ends.symm⟩

/-- **A longer name ends a script** and leaves the rest of it as text and an end tag, although the
reader of end tags reads the longer name there. -/
theorem script_ends_early :
    (events "<script>a</scripty>b</script>").1 =
        [.raw "script" [] "a", .text "b", .closing "script"] ∧
      ¬ UpTo (EndTag "script") "a".toList "</scripty>b</script>".toList ∧
      UpTo (EndTag "script") "a</scripty>b".toList "</script>".toList ∧
      readConstruct "/scripty>b</script>".toList =
        some (.ok (.closing "scripty", "b</script>".toList)) := by
  exact ⟨by decide +kernel, by decide +kernel, by decide +kernel, by rfl⟩

end DataBind.Markup
