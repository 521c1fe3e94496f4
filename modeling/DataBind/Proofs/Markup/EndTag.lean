/-
**What ends a raw text element.**

The content of a raw text element is not markup. It is searched for `</` and the name of the
element in any case; what follows the name is passed over up to the next `>` and not looked at.
End tags elsewhere are read by their whole name.

* `SpellsEnd`: a text that starts with `</` and a name in any case, whatever follows;
* `EndTag`: one in which a character that ends a name follows it;
* `readRaw_eq_some_iff`: the content reaches up to the first place that spells the end, and the rest
  starts behind the next `>`;
* `readRaw_isSome_iff`: there is a content just if some place spells the end and a `>` follows it;
* `readClosing_spelled`: what the reader of end tags reads at a place that spells the end.
-/

import DataBind.Markup.Event
import DataBind.Proofs.Text.Cutting
import DataBind.Proofs.Text.Lowering
import Mathlib.Data.List.TakeWhile

namespace DataBind.Markup

open DataBind.Text

/-- A text that starts with `</` and a name in any case, whatever follows. -/
def SpellsEnd (tag : String) (text : List Char) : Prop :=
  '<' :: '/' :: tag.toList <+: asciiLower text

/-- A text that starts with `</`, a name in any case, and a character that ends the name. -/
def EndTag (tag : String) (text : List Char) : Prop :=
  SpellsEnd tag text ∧ ∃ c ∈ text[tag.toList.length + 2]?, isTagNameCharacter c = false

instance (tag : String) : DecidablePred (SpellsEnd tag) := fun text =>
  inferInstanceAs (Decidable ('<' :: '/' :: tag.toList <+: asciiLower text))

instance (tag : String) : DecidablePred (EndTag tag) := fun text =>
  decidable_of_iff
    (SpellsEnd tag text ∧ (text[tag.toList.length + 2]?).any (!isTagNameCharacter ·) = true)
    (and_congr_right' (by cases text[tag.toList.length + 2]? <;> simp))

variable {tag : String}

/-- The name is written out behind `</`. -/
theorem spellsEnd_iff {text : List Char} :
    SpellsEnd tag text ↔
      ∃ name after, text = '<' :: '/' :: (name ++ after) ∧ asciiLower name = tag.toList := by
  constructor
  · rintro ⟨after, spelled⟩
    obtain ⟨front, rest, rfl, lead, _⟩ := List.map_eq_append_iff.mp spelled.symm
    obtain ⟨c, others, rfl, angle, spelled⟩ := List.map_eq_cons_iff.mp lead
    obtain ⟨d, name, rfl, slash, spelled⟩ := List.map_eq_cons_iff.mp spelled
    rw [toLower_eq_iff (by decide)] at angle slash
    exact ⟨name, rest, by rw [angle, slash]; rfl, spelled⟩
  · rintro ⟨name, after, rfl, spelled⟩
    refine ⟨asciiLower after, ?_⟩
    rw [← spelled]
    simp [asciiLower]

theorem spellsEnd_append {name : List Char} (spelled : asciiLower name = tag.toList)
    (after : List Char) : SpellsEnd tag ('<' :: '/' :: (name ++ after)) :=
  spellsEnd_iff.mpr ⟨name, after, rfl, spelled⟩

/-- **A place that spells the end is an end tag** just if the name ends there. -/
theorem endTag_append {name : List Char} (spelled : asciiLower name = tag.toList)
    (after : List Char) :
    EndTag tag ('<' :: '/' :: (name ++ after)) ↔
      ∃ c ∈ after.head?, isTagNameCharacter c = false := by
  have length : tag.toList.length = name.length := by
    rw [← spelled, asciiLower_length]
  have follows : ('<' :: '/' :: (name ++ after))[tag.toList.length + 2]? = after.head? := by
    rw [length, List.getElem?_cons_succ, List.getElem?_cons_succ,
      List.getElem?_append_right (Nat.le_refl _), Nat.sub_self, List.head?_eq_getElem?]
  rw [EndTag, follows, and_iff_right (spellsEnd_append spelled after)]

/-! ### The content of a raw text element -/

/-- The end is found at the first place that spells it. -/
theorem indexOf?_asciiLower {text : List Char} {n : Nat} :
    indexOf? ('<' :: '/' :: tag.toList) (asciiLower text) = some n ↔
      ∃ front rest, text = front ++ rest ∧ front.length = n ∧ UpTo (SpellsEnd tag) front rest := by
  have nonempty : '<' :: '/' :: tag.toList ≠ [] := List.cons_ne_nil _ _
  constructor
  · intro found
    obtain ⟨⟨low, after⟩, cut, same⟩ := Option.map_eq_some_iff.mp found
    obtain ⟨whole, reaches⟩ := (cutAtText_eq_some_iff nonempty).mp cut
    obtain ⟨front, rest, rfl, rfl, spelled⟩ := List.map_eq_append_iff.mp whole
    rw [← spelled] at reaches
    exact ⟨front, rest, rfl, (asciiLower_length front).symm.trans same, UpTo.map_iff.mp reaches⟩
  · rintro ⟨front, rest, rfl, rfl, reaches⟩
    obtain ⟨after, spelled⟩ := reaches.here
    have lower : asciiLower (front ++ rest) =
        asciiLower front ++ (('<' :: '/' :: tag.toList) ++ after) := by
      rw [spelled]
      exact List.map_append
    have cut : cutAtText ('<' :: '/' :: tag.toList) (asciiLower (front ++ rest)) =
        some (asciiLower front, after) := by
      refine (cutAtText_eq_some_iff nonempty).mpr ⟨lower, ?_⟩
      rw [spelled]
      exact UpTo.map_iff.mpr reaches
    rw [indexOf?, cut]
    exact congrArg some (asciiLower_length front)

/-- **The content of a raw text element** reaches up to the first place that spells its end, and the
rest starts behind the next `>`. -/
theorem readRaw_eq_some_iff {content : String} {text rest : List Char} :
    readRaw tag text = some (content, rest) ↔
      ∃ name tail, text = content.toList ++ '<' :: '/' :: (name ++ (tail ++ '>' :: rest)) ∧
        asciiLower name = tag.toList ∧ '>' ∉ tail ∧
        UpTo (SpellsEnd tag) content.toList ('<' :: '/' :: (name ++ (tail ++ '>' :: rest))) := by
  -- the text is read as the content up to the place that is found, whatever the place
  have read : ∀ {front name after : List Char}, asciiLower name = tag.toList →
      UpTo (SpellsEnd tag) front ('<' :: '/' :: (name ++ after)) →
      readRaw tag (front ++ '<' :: '/' :: (name ++ after)) =
        (cutAt '>' after).map fun found => (String.ofList front, found.2) := by
    intro front name after spelled reaches
    have found := indexOf?_asciiLower.mpr ⟨front, _, rfl, rfl, reaches⟩
    have length : front.length + ('<' :: '/' :: tag.toList).length =
        (front ++ '<' :: '/' :: name).length := by
      rw [← spelled]
      simp [asciiLower]
    have split : front ++ '<' :: '/' :: (name ++ after) =
        (front ++ '<' :: '/' :: name) ++ after := by
      simp
    rw [readRaw]
    simp only [found]
    rw [length, List.take_left, split, List.drop_left]
  constructor
  · intro taken
    have found : ∃ n, indexOf? ('<' :: '/' :: tag.toList) (asciiLower text) = some n := by
      unfold readRaw at taken
      simp only at taken
      split at taken
      · cases taken
      · rename_i n found
        exact ⟨n, found⟩
    obtain ⟨n, found⟩ := found
    obtain ⟨front, back, rfl, _, reaches⟩ := indexOf?_asciiLower.mp found
    obtain ⟨name, after, rfl, spelled⟩ := spellsEnd_iff.mp reaches.here
    rw [read spelled reaches] at taken
    obtain ⟨⟨tail, later⟩, cut, same⟩ := Option.map_eq_some_iff.mp taken
    cases same
    obtain ⟨rfl, absent⟩ := cutAt_eq_some_iff.mp cut
    rw [String.toList_ofList]
    exact ⟨name, tail, rfl, spelled, absent, reaches⟩
  · rintro ⟨name, tail, rfl, spelled, absent, reaches⟩
    rw [read spelled reaches, cutAt_eq_some_iff.mpr ⟨rfl, absent⟩, Option.map_some,
      String.ofList_toList]

/-- **A raw text element is read** just if some place spells its end and a `>` follows. -/
theorem readRaw_isSome_iff {text : List Char} :
    (readRaw tag text).isSome ↔
      ∃ front name tail rest, text = front ++ '<' :: '/' :: (name ++ (tail ++ '>' :: rest)) ∧
        asciiLower name = tag.toList := by
  constructor
  · intro taken
    obtain ⟨⟨content, rest⟩, read⟩ := Option.isSome_iff_exists.mp taken
    obtain ⟨name, tail, whole, spelled, _⟩ := readRaw_eq_some_iff.mp read
    exact ⟨content.toList, name, tail, rest, whole, spelled⟩
  · rintro ⟨front, name, tail, rest, rfl, spelled⟩
    obtain ⟨content, back, whole, reaches, within⟩ :=
      UpTo.exists_of_suffix (List.suffix_append front _)
        (spellsEnd_append spelled (tail ++ '>' :: rest))
    obtain ⟨own, after, rfl, same⟩ := spellsEnd_iff.mp reaches.here
    -- the bracket stands behind a place that is not before the first, so behind its name too
    have bracket : '>' :: rest <:+ '<' :: '/' :: (own ++ after) := by
      refine List.IsSuffix.trans ⟨'<' :: '/' :: (name ++ tail), ?_⟩ within
      simp
    have later : '>' :: rest <:+ after := by
      refine List.suffix_of_suffix_length_le bracket ⟨'<' :: '/' :: own, rfl⟩ ?_
      have length := within.length_le
      have names : own.length = name.length := by
        rw [← asciiLower_length own, ← asciiLower_length name, same, spelled]
      simp only [List.length_cons, List.length_append] at length ⊢
      omega
    obtain ⟨gap, others, rfl, absent⟩ :=
      List.eq_append_cons_of_mem (later.subset (List.mem_cons_self ..))
    rw [whole, readRaw_eq_some_iff.mpr ⟨own, gap, by rw [String.toList_ofList], same, absent, by
      rwa [String.toList_ofList]⟩]
    rfl

/-! ### The reader of end tags -/

/-- Characters of names are so in any case. -/
theorem isTagNameCharacter_of_spelled {name : List Char} (spelled : asciiLower name = tag.toList)
    (characters : ∀ c ∈ tag.toList, isTagNameCharacter c = true) :
    ∀ c ∈ name, isTagNameCharacter c = true := by
  intro c member
  have lower : isTagNameCharacter c.toLower = true :=
    characters _ (spelled ▸ List.mem_map_of_mem member)
  cases alpha : c.isAlpha with
  | true => exact forall_isAlpha (motive := fun c => isTagNameCharacter c = true) (by decide) alpha
  | false => rwa [toLower_of_not_isAlpha alpha] at lower

/-- **What the reader of end tags reads** where the end is spelled: the name with all characters of
names that follow it. -/
theorem readClosing_spelled {name tail : List Char} (spelled : asciiLower name = tag.toList)
    (characters : ∀ c ∈ tag.toList, isTagNameCharacter c = true) (absent : '>' ∉ tail)
    (rest : List Char) :
    readClosing (name ++ (tail ++ '>' :: rest)) =
      .ok (.closing (nameOf (name ++ tail.takeWhile isTagNameCharacter)), rest) := by
  have split : name ++ (tail ++ '>' :: rest) =
      (name ++ tail.takeWhile isTagNameCharacter) ++
        (tail.dropWhile isTagNameCharacter ++ '>' :: rest) := by
    conv => lhs; rw [← List.takeWhile_append_dropWhile (p := isTagNameCharacter) (l := tail)]
    simp only [List.append_assoc]
  have all : ∀ c ∈ name ++ tail.takeWhile isTagNameCharacter, isTagNameCharacter c = true :=
    List.forall_mem_append.mpr ⟨isTagNameCharacter_of_spelled spelled characters,
      fun _ member => List.mem_takeWhile_imp member⟩
  have stop : ∀ c ∈ (tail.dropWhile isTagNameCharacter ++ '>' :: rest).head?,
      isTagNameCharacter c = false := by
    intro c member
    cases left : tail.dropWhile isTagNameCharacter with
    | nil =>
      rw [left] at member
      cases member
      decide
    | cons d others =>
      have first := List.head?_dropWhile_not isTagNameCharacter tail
      rw [left] at first member
      cases member
      simpa using first
  have cut : cutAt '>' (tail.dropWhile isTagNameCharacter ++ '>' :: rest) =
      some (tail.dropWhile isTagNameCharacter, rest) :=
    cutAt_eq_some_iff.mpr ⟨rfl, fun member => absent ((List.dropWhile_sublist _).subset member)⟩
  rw [split, readClosing, takeWhile_append_stop all stop, dropWhile_append_stop all stop]
  simp only [cut]

/-- **Both readers agree** on an end tag just if the name ends where it is spelled. -/
theorem readClosing_eq_closing_iff {name tail : List Char}
    (spelled : asciiLower name = tag.toList)
    (characters : ∀ c ∈ tag.toList, isTagNameCharacter c = true) (absent : '>' ∉ tail)
    (rest : List Char) :
    readClosing (name ++ (tail ++ '>' :: rest)) = .ok (.closing tag, rest) ↔
      EndTag tag ('<' :: '/' :: (name ++ (tail ++ '>' :: rest))) := by
  have named : nameOf (name ++ tail.takeWhile isTagNameCharacter) = tag ↔
      tail.takeWhile isTagNameCharacter = [] := by
    rw [← String.toList_inj, nameOf, String.toList_ofList, asciiLower, List.map_append]
    show asciiLower name ++ _ = _ ↔ _
    rw [spelled, List.append_right_eq_self, List.map_eq_nil_iff]
  rw [readClosing_spelled spelled characters absent, endTag_append spelled]
  simp only [Except.ok.injEq, Prod.mk.injEq, Event.closing.injEq, and_true, named]
  cases tail with
  | nil => simp [show isTagNameCharacter '>' = false by decide]
  | cons c others => simp [List.takeWhile_cons]

end DataBind.Markup
