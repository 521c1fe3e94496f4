/-
**Where a start tag ends.**

A start tag ends at the first `>` outside of quotes. Quotes have a meaning only where the value of
an attribute begins, so whether a character stands in quotes depends on what the tag has before it;
a walk over the characters keeps track of it, and the reader of attributes agrees with the walk.

* `Place`: the places of a start tag, and the place behind another character;
* `endOfTag`: the first `>` outside of quotes, and whether a slash stands before it;
* `endOfTag_eq_none_iff`: a tag does not end where every `>` of the text stands in quotes;
* `endOfTag_append_iff`: what follows the end has no effect on it;
* `readTag_eq_endOfTag`: the reader of start tags ends where the walk does.
-/

import DataBind.Markup.Event
import DataBind.Proofs.Text.Trimming

namespace DataBind.Markup

open DataBind.Text

/-! ### Places -/

/-- A place of a start tag behind its name: between attributes, behind a slash, in or behind the
name of an attribute, behind an equals sign, in a value, or in quotes. -/
inductive Place where
  | between
  | slashed
  | named
  | equated
  | plain
  | quoted (quote : Char)
  deriving DecidableEq, Repr

namespace Place

/-- The place behind a character. -/
def step : Place → Char → Place
  | between, c | slashed, c => if isBlank c then between else if c = '/' then slashed else named
  | named, c => if c = '=' then equated else if c = '/' then slashed else named
  | equated, c =>
    if isBlank c then equated else if c = '"' ∨ c = '\x27' then quoted c else plain
  | plain, c => if isBlank c then between else plain
  | quoted quote, c => if c = quote then between else quoted quote

/-- Whether a place is in quotes. -/
def isQuoted : Place → Bool
  | quoted _ => true
  | _ => false

/-- The place behind a text. -/
def behind (place : Place) (text : List Char) : Place :=
  text.foldl step place

end Place

/-- **The end of a start tag**, read from a place on: whether a slash stands before it, and what
follows it. Nothing if there is no `>` outside of quotes. -/
def endOfTag (place : Place) : List Char → Option (Bool × List Char)
  | [] => none
  | c :: rest =>
    if c = '>' ∧ place.isQuoted = false then some (place == .slashed, rest)
    else endOfTag (place.step c) rest

theorem endOfTag_close {place : Place} (outside : place.isQuoted = false) (rest : List Char) :
    endOfTag place ('>' :: rest) = some (place == .slashed, rest) := by
  rw [endOfTag, if_pos ⟨rfl, outside⟩]

theorem endOfTag_other {c : Char} (other : c ≠ '>') (place : Place) (rest : List Char) :
    endOfTag place (c :: rest) = endOfTag (place.step c) rest := by
  rw [endOfTag, if_neg fun both => other both.1]

/-- **A tag does not end** where every `>` of the text stands in quotes. -/
theorem endOfTag_eq_none_iff {place : Place} {text : List Char} :
    endOfTag place text = none ↔ ∀ front rest, text = front ++ '>' :: rest →
      (place.behind front).isQuoted = true := by
  induction text generalizing place with
  | nil => simp [endOfTag]
  | cons c others ih =>
    rw [endOfTag]
    by_cases ends : c = '>' ∧ place.isQuoted = false
    · rw [if_pos ends]
      obtain ⟨rfl, outside⟩ := ends
      refine ⟨nofun, fun inside => ?_⟩
      have here := inside [] others rfl
      rw [show place.behind [] = place from rfl, outside] at here
      cases here
    · rw [if_neg ends, ih]
      constructor
      · intro later front rest whole
        cases front with
        | nil =>
          cases whole
          rw [not_and, Bool.not_eq_false] at ends
          exact ends rfl
        | cons d front =>
          obtain ⟨rfl, same⟩ := List.cons.inj whole
          exact later front rest same
      · intro inside front rest whole
        exact inside (c :: front) rest (congrArg (c :: ·) whole)

theorem endOfTag_length {place : Place} {closes : Bool} {text rest : List Char}
    (found : endOfTag place text = some (closes, rest)) : rest.length < text.length := by
  induction text generalizing place with
  | nil => cases found
  | cons c others ih =>
    rw [endOfTag] at found
    split at found
    · cases found
      exact Nat.lt_succ_self _
    · exact Nat.lt_succ_of_lt (ih found)

/-- **What follows the end of a tag has no effect on it.** -/
theorem endOfTag_append_iff {place : Place} {closes : Bool} {text rest : List Char}
    (more : List Char) :
    endOfTag place (text ++ more) = some (closes, rest ++ more) ↔
      endOfTag place text = some (closes, rest) := by
  induction text generalizing place with
  | nil =>
    refine ⟨fun found => ?_, nofun⟩
    have shorter := endOfTag_length found
    rw [List.nil_append, List.length_append] at shorter
    omega
  | cons c others ih =>
    rw [List.cons_append, endOfTag, endOfTag]
    by_cases ends : c = '>' ∧ place.isQuoted = false
    · rw [if_pos ends, if_pos ends]
      simp
    · rw [if_neg ends, if_neg ends, ih]

/-! ### Walking over what is read -/

/-- White space is passed over where it does not change the place. -/
theorem endOfTag_trimStart {place : Place} (stays : ∀ c, isBlank c = true → place.step c = place)
    (text : List Char) : endOfTag place (trimStart text) = endOfTag place text := by
  induction text with
  | nil => rfl
  | cons c others ih =>
    by_cases blank : isBlank c = true
    · have other : c ≠ '>' := by
        rintro rfl
        exact absurd blank (by decide)
      rw [endOfTag_other other, stays c blank, ← ih]
      exact congrArg (endOfTag place) (List.dropWhile_cons_of_pos blank)
    · rw [Bool.not_eq_true] at blank
      rw [trimStart_eq_self others blank]

/-- A name goes on up to its end. -/
theorem endOfTag_name (text : List Char) :
    endOfTag .named (text.dropWhile isAttributeNameCharacter) = endOfTag .named text := by
  induction text with
  | nil => rfl
  | cons c others ih =>
    by_cases name : isAttributeNameCharacter c = true
    · have free : c ≠ '/' ∧ c ≠ '>' ∧ c ≠ '=' := by
        simp [isAttributeNameCharacter] at name
        exact ⟨name.1.1.2, name.1.2, name.2⟩
      rw [List.dropWhile_cons_of_pos name, ih, endOfTag_other free.2.1]
      simp [Place.step, free]
    · rw [List.dropWhile_cons_of_neg name]

/-- A value without quotes goes on up to its end. -/
theorem endOfTag_plain (text : List Char) :
    endOfTag .between (text.dropWhile isPlainValueCharacter) = endOfTag .plain text := by
  induction text with
  | nil => rfl
  | cons c others ih =>
    by_cases value : isPlainValueCharacter c = true
    · have free : isBlank c = false ∧ c ≠ '>' := by
        simpa [isPlainValueCharacter] using value
      rw [List.dropWhile_cons_of_pos value, ih, endOfTag_other free.2]
      simp [Place.step, free.1]
    · rw [List.dropWhile_cons_of_neg value]
      by_cases angle : c = '>'
      · rw [angle, endOfTag_close rfl, endOfTag_close rfl]
        rfl
      · have blank : isBlank c = true := by
          simpa [isPlainValueCharacter, angle] using value
        rw [endOfTag_other angle, endOfTag_other angle]
        simp [Place.step, blank]

/-- Quotes go on up to the next one. -/
theorem endOfTag_quoted (quote : Char) (text : List Char) :
    endOfTag (.quoted quote) text =
      (cutAt quote text).bind fun (_, after) => endOfTag .between after := by
  induction text with
  | nil => rfl
  | cons c others ih =>
    rw [endOfTag, if_neg (by simp [Place.isQuoted]), cutAt]
    by_cases same : c = quote
    · rw [if_pos same]
      simp [Place.step, same]
    · rw [if_neg same, Option.bind_map]
      simp only [Place.step, if_neg same, ih]
      rfl

/-- The value of an attribute is passed over. -/
theorem endOfTag_value (text : List Char) :
    endOfTag .equated text = (readValue? text).bind fun (_, after) => endOfTag .between after := by
  rw [← endOfTag_trimStart (fun c blank => by simp [Place.step, blank]), readValue?]
  split
  · rename_i empty
    rw [empty]
    rfl
  · rename_i c rest start
    rw [start]
    have solid : isBlank c = false := solid_of_trimStart start
    by_cases quote : c = '"' ∨ c = '\x27'
    · have other : c ≠ '>' := by
        rcases quote with rfl | rfl <;> decide
      rw [if_pos quote, endOfTag_other other, Option.bind_map]
      simp only [Place.step, solid, quote, if_true, Bool.false_eq_true, if_false, endOfTag_quoted]
      rfl
    · rw [if_neg quote]
      show _ = endOfTag .between _
      rw [endOfTag_plain]
      by_cases angle : c = '>'
      · rw [angle, endOfTag_close rfl, endOfTag_close rfl]
        rfl
      · rw [endOfTag_other angle, endOfTag_other angle]
        simp [Place.step, solid, quote]

/-- White space is neither a slash nor an equals sign. -/
theorem ne_of_isBlank {c : Char} (blank : isBlank c = true) : c ≠ '=' ∧ c ≠ '/' := by
  constructor <;> rintro rfl <;> exact absurd blank (by decide)

/-- So is a value that may be missing. -/
theorem endOfTag_optionalValue (text : List Char) :
    endOfTag .named text =
      (readOptionalValue? text).bind fun (_, after) => endOfTag .between after := by
  have stays : ∀ c, isBlank c = true → Place.named.step c = .named := by
    intro c blank
    simp [Place.step, ne_of_isBlank blank]
  rw [← endOfTag_trimStart stays, readOptionalValue?]
  split
  · rename_i rest start
    rw [start, endOfTag_other (by decide)]
    exact endOfTag_value rest
  · rename_i missing
    show _ = endOfTag .between (trimStart text)
    cases start : trimStart text with
    | nil => rfl
    | cons c rest =>
      have solid := solid_of_trimStart start
      have other : c ≠ '=' := by
        rintro rfl
        exact missing rest start
      by_cases angle : c = '>'
      · rw [angle, endOfTag_close rfl, endOfTag_close rfl]
        rfl
      · rw [endOfTag_other angle, endOfTag_other angle]
        simp [Place.step, solid, other]

/-- An attribute is passed over. -/
theorem endOfTag_attribute {c : Char} (solid : isBlank c = false) (slash : c ≠ '/')
    (angle : c ≠ '>') (rest : List Char) : endOfTag .between (c :: rest) =
      (readAttribute? c rest).bind fun (_, after) => endOfTag .between after := by
  have start : endOfTag .between (c :: rest) = endOfTag .named rest := by
    rw [endOfTag_other angle]
    simp [Place.step, solid, slash]
  rw [start, readAttribute?]
  by_cases equals : c = '='
  · have empty : (c :: rest).takeWhile isAttributeNameCharacter = [] := by
      rw [equals]
      exact List.takeWhile_cons_of_neg (by decide)
    simp only [empty, List.isEmpty_nil, if_true]
    rw [Option.bind_map, endOfTag_optionalValue]
    rfl
  · have name : isAttributeNameCharacter c = true := by
      simp [isAttributeNameCharacter, solid, slash, angle, equals]
    rw [List.takeWhile_cons_of_pos name, List.dropWhile_cons_of_pos name]
    simp only [List.isEmpty_cons, Bool.false_eq_true, if_false]
    rw [Option.bind_map, ← endOfTag_name, endOfTag_optionalValue]
    rfl

/-- A slash that does not stand before the end is passed over. -/
theorem endOfTag_slashed {text : List Char} (further : ∀ rest, text ≠ '>' :: rest) :
    endOfTag .slashed text = endOfTag .between text := by
  cases text with
  | nil => rfl
  | cons c rest =>
    have other : c ≠ '>' := by
      rintro rfl
      exact further rest rfl
    rw [endOfTag_other other, endOfTag_other other]
    rfl

/-- **The reader of start tags ends where the walk does.** -/
theorem readTag_eq_endOfTag (known : List Attribute) (text : List Char) :
    (readTag known text).map (fun taken => (taken.1.2, taken.2)) = endOfTag .between text := by
  have stays : ∀ c, isBlank c = true → Place.between.step c = .between := by
    intro c blank
    simp [Place.step, blank]
  fun_induction readTag known text with
  | case1 _ _ inside =>
    rw [← endOfTag_trimStart stays, inside]
    rfl
  | case2 _ _ rest inside =>
    rw [← endOfTag_trimStart stays, inside, endOfTag_close rfl]
    rfl
  | case3 _ _ rest inside =>
    rw [← endOfTag_trimStart stays, inside, endOfTag_other (by decide)]
    have closed : endOfTag .slashed ('>' :: rest) = some (true, rest) := endOfTag_close rfl rest
    exact closed.symm
  | case4 _ _ rest further inside _ ih =>
    rw [← endOfTag_trimStart stays, inside, endOfTag_other (by decide), ih]
    exact (endOfTag_slashed further).symm
  | case5 _ _ c rest angle _ slash inside named =>
    rw [← endOfTag_trimStart stays, inside,
      endOfTag_attribute (solid_of_trimStart inside) slash angle, named]
    rfl
  | case6 _ _ c rest angle _ slash inside entry after named _ _ _ ih =>
    rw [← endOfTag_trimStart stays, inside,
      endOfTag_attribute (solid_of_trimStart inside) slash angle, named]
    exact ih

end DataBind.Markup
