/-
**Splitting a text and joining its pieces.**

A text is split at a separator, the text of a value; without one it is its only piece, and an empty
one sets all characters apart. Joined with the same value the pieces are the text again.

* `callMethod_eq`: a method of a type is called where no property has its name;
* `splitTexts`: the pieces of a text;
* `intercalate_splitTexts`: they are joined to the text;
* `splitTexts_apart`, `splitTexts_characters`: none of them contains the separator;
* `join_split`: the same for the two methods, called one after the other.
-/

import DataBind.Expr.Eval
import DataBind.Proofs.Text.Pieces

namespace DataBind

open Text Builtin

/-! ### Calls -/

/-- The names of methods are no properties of texts and of arrays. -/
theorem property_name {this : Value} {name : String} (other : name ≠ "length")
    (word : Number.readNumber? name.toList = none)
    (indexed : (∃ text, this = .string text) ∨ ∃ identity items, this = .array identity items) :
    property this (.string name) = .ok .undefined := by
  have named : isLength (.string name) = false := beq_eq_false_iff_ne.mpr other
  have index : elementIndex? (.string name) = none := by rw [elementIndex?, word]; rfl
  obtain ⟨text, rfl⟩ | ⟨identity, items, rfl⟩ := indexed
  · rw [property, named, index]
    rfl
  · rw [property, named, index]
    rfl

/-- **A method of a type is called** where no property has its name. -/
theorem callMethod_eq {host : Host} {this method : Value} {arguments : List Value}
    {result : Evaluation Value} (missing : property this method = .ok .undefined)
    (found : method? this method.toText arguments = some result) :
    Expr.callMethod host this method arguments = result := by
  have called : Expr.callMethod host this method arguments =
      (method? this method.toText arguments).getD (throw (.notAFunction method.toText)) := by
    rw [Expr.callMethod, missing]
    cases method? this method.toText arguments <;> rfl
  rw [called, found, Option.getD_some]

/-! ### Pieces -/

/-- The pieces of a text between the occurrences of another; an empty one separates all
characters. -/
def textsBetween (glue text : String) : List String :=
  if glue = "" then text.toList.map String.singleton
  else (pieces glue.toList text.toList).map String.ofList

/-- The pieces of a text that a value separates. -/
def splitTexts (text : String) : Value → List String
  | .undefined => [text]
  | separator => textsBetween separator.toText text

/-- The text that a value puts between others. -/
def glueText : Value → String
  | .undefined => ","
  | separator => separator.toText

theorem toList_intercalate_ofList (glue : String) (parts : List (List Char)) :
    (glue.intercalate (parts.map String.ofList)).toList = glue.toList.intercalate parts := by
  rw [String.toList_intercalate, List.map_map]
  exact congrArg _ (List.map_id'' (fun part => String.toList_ofList) parts)

/-- With nothing between them, the characters make up the text. -/
theorem intercalate_characters (characters : List Char) :
    [].intercalate (characters.map fun c => [c]) = characters := by
  induction characters with
  | nil => rfl
  | cons c rest ih =>
    by_cases last : rest = []
    · rw [last]
      rfl
    · have more : rest.map (fun c => [c]) ≠ [] := mt List.map_eq_nil_iff.mp last
      rw [List.map_cons, List.intercalate_cons_of_ne_nil more, ih]
      rfl

theorem intercalate_textsBetween (glue text : String) :
    glue.intercalate (textsBetween glue text) = text := by
  rw [textsBetween, ← String.toList_inj]
  split
  · subst glue
    have apart : String.toList ∘ String.singleton = fun c => [c] :=
      funext fun c => String.toList_singleton c
    rw [String.toList_intercalate, List.map_map, apart]
    exact intercalate_characters text.toList
  · have characters : glue.toList ≠ [] := mt String.toList_eq_nil_iff.mp ‹_›
    rw [toList_intercalate_ofList, intercalate_pieces characters]

/-- **The pieces are joined to the text**, whatever separates them. -/
theorem intercalate_splitTexts (text : String) (separator : Value) :
    (glueText separator).intercalate (splitTexts text separator) = text := by
  cases separator with
  | undefined => rfl
  | _ => exact intercalate_textsBetween _ text

section Given

variable {text : String} {separator : Value} (given : separator ≠ .undefined)

include given

theorem splitTexts_of_ne : splitTexts text separator = textsBetween separator.toText text := by
  cases separator with
  | undefined => exact absurd rfl given
  | _ => rfl

/-- **No piece contains the separator.** -/
theorem splitTexts_apart (nonempty : separator.toText ≠ "") :
    ∀ piece ∈ splitTexts text separator, ¬ separator.toText.toList <:+: piece.toList := by
  have characters : separator.toText.toList ≠ [] := mt String.toList_eq_nil_iff.mp nonempty
  rw [splitTexts_of_ne given, textsBetween, if_neg nonempty, List.forall_mem_map]
  intro piece listed
  rw [String.toList_ofList]
  exact not_infix_of_mem_pieces characters piece listed

/-- Where nothing separates, the pieces are characters. -/
theorem splitTexts_characters (empty : separator.toText = "") :
    ∀ piece ∈ splitTexts text separator, piece.length = 1 := by
  rw [splitTexts_of_ne given, textsBetween, if_pos empty, List.forall_mem_map]
  intro c _
  rw [← String.length_toList, String.toList_singleton]
  rfl

end Given

/-! ### Both methods -/

section

variable (host : Host) (text : String) (texts : List String) (arguments : List Value)
  (next identity : Nat)

theorem stringMethod?_split :
    stringMethod? text "split" arguments =
      some (Evaluation.newArray ((splitTexts text (argument arguments 0)).map .string)) := by
  have made : ∀ glue : String, (if glue.toList.isEmpty
      then some (Evaluation.newArray (text.toList.map ofCharacter))
      else some (Evaluation.newArray
        ((pieces glue.toList text.toList).map fun piece => .string (String.ofList piece)))) =
      some (Evaluation.newArray ((textsBetween glue text).map .string)) := by
    intro glue
    simp only [textsBetween, List.isEmpty_iff, String.toList_eq_nil_iff]
    split <;> rw [List.map_map] <;> rfl
  unfold stringMethod?
  simp only
  cases argument arguments 0 with
  | undefined => rfl
  | _ => exact made _

/-- The method `split` makes a new array of the pieces. -/
theorem callMethod_split :
    Expr.callMethod host (.string text) (.string "split") arguments next =
      .ok (.array next ((splitTexts text (argument arguments 0)).map .string), next + 1) := by
  have missing : property (.string text) (.string "split") = .ok .undefined :=
    property_name (by decide) rfl (.inl ⟨text, rfl⟩)
  exact congrFun (callMethod_eq missing (stringMethod?_split text arguments)) next

theorem arrayMethod?_join (items : List Value) :
    arrayMethod? items "join" arguments =
      some (pure (.string ((glueText (argument arguments 0)).intercalate
        (Value.itemTexts items)))) := by
  unfold arrayMethod?
  simp only
  cases argument arguments 0 <;> simp [glueText]

theorem itemTexts_texts : Value.itemTexts (texts.map .string) = texts := by
  induction texts with
  | nil => rfl
  | cons text texts ih => exact congrArg (text :: ·) ih

/-- The method `join` puts the separator between the texts. -/
theorem callMethod_join :
    Expr.callMethod host (.array identity (texts.map .string)) (.string "join") arguments next =
      .ok (.string ((glueText (argument arguments 0)).intercalate texts), next) := by
  have missing : property (.array identity (texts.map .string)) (.string "join") =
      .ok .undefined :=
    property_name (by decide) rfl (.inr ⟨identity, _, rfl⟩)
  have joined := arrayMethod?_join arguments (texts.map .string)
  rw [itemTexts_texts] at joined
  exact congrFun (callMethod_eq missing joined) next

/-- **What is split and joined with the same separator is the text again**, although the pieces
are apart: none of them contains the separator, and without any text in it they are characters. -/
theorem join_split :
    (do
      let parts ← Expr.callMethod host (.string text) (.string "split") arguments
      let joined ← Expr.callMethod host parts (.string "join") arguments
      return Expr.applyBinary .equalStrict joined (.string text) : Evaluation Value) next =
        .ok (.bool true, next + 1) ∧
    ∃ pieces : List String,
      Expr.callMethod host (.string text) (.string "split") arguments next =
        .ok (.array next (pieces.map .string), next + 1) ∧
      (argument arguments 0 ≠ .undefined → ∀ piece ∈ pieces,
        if (argument arguments 0).toText = "" then piece.length = 1
        else ¬ (argument arguments 0).toText.toList <:+: piece.toList) := by
  have joined := callMethod_join host (splitTexts text (argument arguments 0)) arguments (next + 1)
    next
  rw [intercalate_splitTexts] at joined
  constructor
  · have same : (Value.string text).strictEq (.string text) = true := beq_self_eq_true text
    simp only [bind, StateT.bind, Except.bind, callMethod_split, joined]
    rw [Expr.applyBinary, same]
    rfl
  · refine ⟨_, callMethod_split host text arguments next, fun given piece listed => ?_⟩
    split
    · exact splitTexts_characters given ‹_› piece listed
    · exact splitTexts_apart given ‹_› piece listed

end

end DataBind
