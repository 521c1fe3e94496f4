/-
**The properties that the keys of a style binding stand for.**

In a key every capital becomes a dash and its small letter, whether the key is in camel case or has
dashes of its own. So the name is the key in lower case just where the key has no capital; and only
then a style binding replaces the literal declaration of that property.

* `length_propertyName`: a name is longer than its key by the number of capitals;
* `propertyName_eq_lower_iff`: keys without capitals;
* `plain_propertyName`: names have no capitals, so that naming twice is naming once;
* `stays_iff`: which literal declarations stay beside the entries of a binding;
* `propertyName_exact`: all of this together.
-/

import DataBind.Proofs.Text.Lowering
import DataBind.Template.Attribute
import Mathlib.Data.List.Basic

namespace DataBind.Style

open DataBind.Text

/-! ### Capitals -/

/-- A text without capitals, of the ASCII letters. -/
def Plain (text : String) : Prop :=
  ∀ c ∈ text.toList, c.isUpper = false

theorem plain_iff_countP {text : String} : Plain text ↔ text.toList.countP Char.isUpper = 0 := by
  simp [Plain, List.countP_eq_zero]

theorem toLower_of_not_isUpper {c : Char} (small : c.isUpper = false) : c.toLower = c := by
  unfold Char.isUpper at small
  unfold Char.toLower
  rw [dif_neg]
  simpa using small

theorem isUpper_toLower (c : Char) : c.toLower.isUpper = false := by
  cases alpha : c.isAlpha with
  | true => exact forall_isAlpha (motive := fun c => c.toLower.isUpper = false) (by decide) alpha
  | false =>
    rw [toLower_of_not_isAlpha alpha]
    exact (Bool.or_eq_false_iff.mp alpha).1

/-- A text with its ASCII capitals in lower case. -/
def lower (text : String) : String :=
  String.ofList (asciiLower text.toList)

theorem length_lower (text : String) : (lower text).length = text.length := by
  rw [lower, String.length_ofList, asciiLower_length, String.length_toList]

theorem lower_of_plain {text : String} (plain : Plain text) : lower text = text := by
  have same : asciiLower text.toList = text.toList :=
    (List.map_congr_left fun c inside => toLower_of_not_isUpper (plain c inside)).trans
      (List.map_id'' (fun _ => rfl) _)
  rw [lower, same, String.ofList_toList]

/-! ### Names -/

/-- **A name is longer than its key** by the number of capitals. -/
theorem length_propertyName (key : String) :
    (propertyName key).length = key.length + key.toList.countP Char.isUpper := by
  rw [propertyName, String.length_ofList, ← String.length_toList]
  induction key.toList with
  | nil => rfl
  | cons c rest ih =>
    rw [List.flatMap_cons, List.length_append, ih, List.countP_cons, propertyCharacter,
      List.length_cons]
    split <;> simp <;> omega

theorem propertyName_of_plain {key : String} (plain : Plain key) : propertyName key = key := by
  have single : ∀ c ∈ key.toList, propertyCharacter c = [c] := fun c inside => by
    rw [propertyCharacter, plain c inside]
    rfl
  rw [propertyName, List.flatMap_congr single, List.flatMap_singleton', String.ofList_toList]

/-- **Names have no capitals.** -/
theorem plain_propertyName (key : String) : Plain (propertyName key) := by
  intro c inside
  rw [propertyName, String.toList_ofList] at inside
  obtain ⟨d, _, inside⟩ := List.mem_flatMap.mp inside
  rw [propertyCharacter] at inside
  split at inside
  · rcases List.mem_cons.mp inside with rfl | inside
    · rfl
    · rw [List.mem_singleton.mp inside]
      exact isUpper_toLower d
  · rename_i small
    rw [List.mem_singleton.mp inside]
    exact Bool.not_eq_true _ ▸ small

/-- **The name is the key in lower case** just if the key has no capital. -/
theorem propertyName_eq_lower_iff {key : String} : propertyName key = lower key ↔ Plain key := by
  constructor
  · intro same
    have long := length_propertyName key
    rw [same, length_lower] at long
    rw [plain_iff_countP]
    omega
  · intro plain
    rw [propertyName_of_plain plain, lower_of_plain plain]

/-- A capital becomes a dash and its small letter. -/
theorem propertyName_capital {c : Char} (capital : c.isUpper = true) :
    propertyName (String.singleton c) = "-" ++ String.singleton c.toLower := by
  rw [propertyName, String.toList_singleton, List.flatMap_singleton, propertyCharacter,
    if_pos capital, ← String.toList_inj]
  simp

/-! ### Literal declarations -/

/-- The literal declarations that stay beside the entries of a style binding. -/
def staying (entries : List (String × String)) (literal : String) : List Declaration :=
  (parseDeclarations literal).filter fun declaration =>
    !entries.any fun entry => propertyName entry.1 == declaration.1

theorem styleStep_eq {source : String} {entries : List (String × String)}
    (read : Binding.entriesOf source = .ok entries) (literal : String) :
    Template.styleStep source literal = .ok (.styles (staying entries literal)
      (entries.map fun (key, value) => (propertyName key, Expression.parse value))) := by
  rw [Template.styleStep, read]
  simp only [Except.map, List.any_map]
  rfl

/-- **A literal declaration stays** beside entries of other names. -/
theorem stays_iff {entries : List (String × String)} {literal : String}
    {declaration : Declaration} (written : declaration ∈ parseDeclarations literal) :
    declaration ∈ staying entries literal ↔
      ∀ entry ∈ entries, propertyName entry.1 ≠ declaration.1 := by
  simp [staying, List.mem_filter, written]

/-! ### Names and declarations -/

/-- **The name that a key stands for.** Every capital becomes a dash and its small letter, and all
else stays; naming a name changes nothing. The name is the key in lower case just if the key has no
capital, also where it has dashes. So an entry of a style binding takes the place of a literal
declaration whose property is its key, up to case, unless the key has a capital: then both stand. -/
theorem propertyName_exact (key : String) :
    (Plain key → propertyName key = key) ∧
    (∀ front back c, key = front ++ String.singleton c ++ back → c.isUpper = true →
      propertyName key =
        propertyName front ++ ("-" ++ String.singleton c.toLower) ++ propertyName back) ∧
    propertyName (propertyName key) = propertyName key ∧
    (propertyName key = lower key ↔ Plain key) ∧
    ∀ source entries, Binding.entriesOf source = .ok entries → key ∈ entries.map Prod.fst →
      ∀ literal, ∃ fixed dynamic,
        Template.styleStep source literal = .ok (.styles fixed dynamic) ∧
        propertyName key ∈ dynamic.map Prod.fst ∧
        ∀ declaration ∈ parseDeclarations literal, declaration.1 = lower key →
          (declaration ∈ fixed ↔ ¬ Plain key ∧
            ∀ entry ∈ entries, entry.1 ≠ key → propertyName entry.1 ≠ declaration.1) := by
  refine ⟨propertyName_of_plain, ?_, propertyName_of_plain (plain_propertyName key),
    propertyName_eq_lower_iff, ?_⟩
  · rintro front back c rfl capital
    rw [propertyName_append, propertyName_append, propertyName_capital capital]
  · intro source entries read listed literal
    refine ⟨_, _, styleStep_eq read literal, ?_, fun declaration written same => ?_⟩
    · obtain ⟨entry, inside, rfl⟩ := List.mem_map.mp listed
      rw [List.map_map]
      exact List.mem_map.mpr ⟨entry, inside, rfl⟩
    · rw [stays_iff written, ← propertyName_eq_lower_iff, ← same]
      constructor
      · intro others
        obtain ⟨entry, inside, own⟩ := List.mem_map.mp listed
        exact ⟨own ▸ others entry inside, fun entry inside _ => others entry inside⟩
      · rintro ⟨own, others⟩ entry inside
        by_cases equal : entry.1 = key
        · exact equal ▸ own
        · exact others entry inside equal

/-- **A key with a dash and capitals** is not put in lower case, and the literal declaration of the
property stays beside the entry. -/
theorem propertyName_dashed :
    '-' ∈ "Font-Size".toList ∧ propertyName "Font-Size" ≠ lower "Font-Size" ∧
      propertyName "Font-Size" = "-font--size" ∧ lower "Font-Size" = "font-size" ∧
      parseDeclarations "font-size: 1px" = [("font-size", "1px")] ∧
      Template.styleStep "'Font-Size': size" "font-size: 1px" =
        .ok (.styles [("font-size", "1px")] [("-font--size", Expression.parse "size")]) := by
  have read : Binding.entriesOf "'Font-Size': size" = .ok [("Font-Size", "size")] := by
    rfl
  have stays : staying [("Font-Size", "size")] "font-size: 1px" = [("font-size", "1px")] := by
    decide +kernel
  have name : propertyName "Font-Size" = "-font--size" := by decide +kernel
  refine ⟨by decide, by decide +kernel, name, by decide +kernel, by decide +kernel, ?_⟩
  rw [styleStep_eq read, stays]
  simp only [List.map_singleton, name]

end DataBind.Style
