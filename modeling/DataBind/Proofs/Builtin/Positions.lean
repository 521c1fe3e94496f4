/-
**Lengths and positions of texts.**

Positions in a text count its characters: an element, `charAt`, `indexOf`, `substring` and the
pieces of a split at the empty text agree about them. Its length counts 16-bit units, of which a
character from U+10000 on has two. So lengths can be compared with positions, or added to them,
just where the characters are narrow.

* `unitLength_eq_iff`: the texts whose units are as many as their characters;
* `property_position`, `callMethod_charAt`: the character at a position;
* `callMethod_substring`: the characters between two positions;
* `take_found_iff`: as many characters as a needle has units, from where it was found on;
* `units_of_text`: all of that for one text.
-/

import DataBind.Proofs.Builtin.Splitting
import DataBind.Proofs.Number.Naturals

namespace DataBind

open Text Builtin

/-! ### Units -/

namespace Text

/-- A text of characters below U+10000, which have one 16-bit unit each. -/
def Narrow (text : List Char) : Prop :=
  ∀ c ∈ text, c.toNat < 0x10000

instance (text : List Char) : Decidable (Narrow text) :=
  inferInstanceAs (Decidable (∀ c ∈ text, c.toNat < 0x10000))

theorem length_le_unitLength (text : List Char) : text.length ≤ unitLength text := by
  induction text with
  | nil => rfl
  | cons c text ih =>
    rw [List.length_cons, unitLength]
    split <;> omega

/-- **The units are as many as the characters** just if all of these are narrow. -/
theorem unitLength_eq_iff (text : List Char) :
    unitLength text = text.length ↔ Narrow text := by
  induction text with
  | nil => exact iff_of_true rfl (List.forall_mem_nil _)
  | cons c text ih =>
    have least := length_le_unitLength text
    rw [Narrow, List.forall_mem_cons, ← Narrow, ← ih, List.length_cons, unitLength]
    split <;> omega

end Text

/-! ### Positions -/

section Positions

variable (host : Host) (text : String) (next : Nat)

theorem property_length :
    property (.string text) (.string "length") = .ok (.ofNat (unitLength text.toList)) := rfl

/-- A method that only gives a value. -/
theorem callMethod_text {name : String} {arguments : List Value} {value : Value}
    (other : name ≠ "length") (word : Number.readNumber? name.toList = none)
    (found : stringMethod? text name arguments = some (pure value)) :
    Expr.callMethod host (.string text) (.string name) arguments next = .ok (value, next) :=
  congrFun (callMethod_eq (property_name other word (.inl ⟨text, rfl⟩)) found) next

theorem clampIndex_ofNat {i : Nat} (small : i < 2 ^ 53) (length : Nat) (fromEnd : Bool) :
    clampIndex (Float.ofNat i) length fromEnd = min i length := by
  rw [clampIndex, Number.truncated_ofNat small]

/-- The elements of a text are its characters. -/
theorem property_position {i : Nat} (small : i < 2 ^ 53) :
    property (.string text) (.ofNat i) =
      .ok (((text.toList[i]?).map ofCharacter).getD .undefined) := by
  have index : elementIndex? (.ofNat i) = some i := Number.naturalIndex?_ofNat small
  rw [property, index]
  rfl

/-- The character at a position, if any. -/
theorem callMethod_charAt {i : Nat} (small : i < 2 ^ 53) :
    Expr.callMethod host (.string text) (.string "charAt") [.ofNat i] next =
      .ok (.string (String.ofList ((text.toList.drop i).take 1)), next) := by
  have character : characterAt text.toList (Float.ofNat i) =
      String.ofList ((text.toList.drop i).take 1) := by
    rw [characterAt, if_neg (Number.ofNat_not_lt_zero small), Number.truncated_ofNat small]
  rw [← character]
  exact callMethod_text host text next (by decide) rfl rfl

theorem callMethod_indexOf (needle : String) :
    Expr.callMethod host (.string text) (.string "indexOf") [.string needle] next =
      .ok (foundAt (indexOf? needle.toList text.toList), next) :=
  callMethod_text host text next (by decide) rfl rfl

/-- What stands between two positions, each of them clamped. -/
theorem slice_min {α : Type} (items : List α) {i j : Nat} (ordered : i ≤ j) :
    slice items (min (min i items.length) (min j items.length))
      (max (min i items.length) (min j items.length)) = (items.drop i).take (j - i) := by
  have lower : min (min i items.length) (min j items.length) = min i items.length := by omega
  have upper : max (min i items.length) (min j items.length) = min j items.length := by omega
  rw [lower, upper, slice]
  rcases Nat.le_total i items.length with inside | outside
  · rw [Nat.min_eq_left inside, List.take_eq_take_iff, List.length_drop]
    omega
  · rw [Nat.min_eq_right outside, List.drop_length, List.drop_eq_nil_of_le outside, List.take_nil,
      List.take_nil]

/-- The characters between two positions. -/
theorem callMethod_substring {i j : Nat} (ordered : i ≤ j) (small : j < 2 ^ 53) :
    Expr.callMethod host (.string text) (.string "substring") [.ofNat i, .ofNat j] next =
      .ok (.string (String.ofList ((text.toList.drop i).take (j - i))), next) := by
  have first := clampIndex_ofNat (i := i) (by omega) text.toList.length false
  have second := clampIndex_ofNat small text.toList.length false
  rw [← slice_min text.toList ordered, ← first, ← second]
  exact callMethod_text host text next (by decide) rfl rfl

end Positions

/-! ### Both together -/

section Found

variable {needle text : List Char} {position : Nat}

/-- A needle stands where it was found. -/
theorem exists_of_indexOf? (found : indexOf? needle text = some position) :
    ∃ front back, text = front ++ needle ++ back ∧ front.length = position := by
  obtain ⟨⟨front, back⟩, cut, same⟩ := Option.map_eq_some_iff.mp found
  exact ⟨front, back, cutAtText_eq_some cut, same⟩

theorem indexOf?_le_unitLength (found : indexOf? needle text = some position) :
    position + unitLength needle ≤ unitLength text := by
  obtain ⟨front, back, rfl, rfl⟩ := exists_of_indexOf? found
  have least := length_le_unitLength front
  rw [unitLength_append, unitLength_append]
  omega

/-- **As many characters as a needle has units**, from where it was found on, are the needle just
if it is narrow, or at the end of the text. -/
theorem take_found_iff (found : indexOf? needle text = some position) :
    (text.drop position).take (unitLength needle) = needle ↔
      Narrow needle ∨ text.length = position + needle.length := by
  obtain ⟨front, back, rfl, rfl⟩ := exists_of_indexOf? found
  have least := length_le_unitLength needle
  rw [List.append_assoc, List.drop_left, List.take_append, List.take_of_length_le least,
    List.append_right_eq_self, List.take_eq_nil_iff, ← unitLength_eq_iff, ← List.length_eq_zero_iff,
    List.length_append, List.length_append]
  omega

end Found

theorem add_ofNat {a b : Nat} (small : a + b < 2 ^ 53) :
    Expr.applyBinary .add (.ofNat a) (.ofNat b) = .ofNat (a + b) :=
  congrArg Value.number (Number.ofNat_add small)

/-- **The lengths and positions of a text.** Its length counts units, and all else characters. -/
structure Units (host : Host) (text : String) (next : Nat) : Prop where
  length : property (.string text) (.string "length") = .ok (.ofNat (unitLength text.toList))
  characters_le : text.length ≤ unitLength text.toList
  /-- Units and characters are the same in number for narrow texts. -/
  narrow_iff : unitLength text.toList = text.length ↔ Narrow text.toList
  element : ∀ i < 2 ^ 53, ∃ item,
    property (.string text) (.ofNat i) = .ok item ∧ (item ≠ .undefined ↔ i < text.length)
  charAt : ∀ i < 2 ^ 53, ∃ found,
    Expr.callMethod host (.string text) (.string "charAt") [.ofNat i] next =
      .ok (.string found, next) ∧ (found ≠ "" ↔ i < text.length)
  split : ∃ parts,
    Expr.callMethod host (.string text) (.string "split") [.string ""] next =
      .ok (.array next parts, next + 1) ∧ parts.length = text.length
  indexOf : ∀ needle,
    Expr.callMethod host (.string text) (.string "indexOf") [.string needle] next =
      .ok (foundAt (indexOf? needle.toList text.toList), next)
  /-- From where a needle was found, as many characters as it is long. -/
  substring : unitLength text.toList < 2 ^ 53 →
    ∀ needle : String, ∀ position ∈ indexOf? needle.toList text.toList, ∃ part,
      Expr.callMethod host (.string text) (.string "substring")
          [.ofNat position, Expr.applyBinary .add (.ofNat position)
            (.ofNat (unitLength needle.toList))] next =
        .ok (.string part, next) ∧
      (part = needle ↔ Narrow needle.toList ∨ text.length = position + needle.length)

/-- **A text has its length in units and its positions in characters**, so that these agree on
narrow texts only. -/
theorem units_of_text (host : Host) (text : String) (next : Nat) : Units host text next where
  length := property_length text
  characters_le := length_le_unitLength text.toList
  narrow_iff := unitLength_eq_iff text.toList
  element i small := by
    refine ⟨_, property_position text small, ?_⟩
    rw [← String.length_toList]
    rcases Nat.lt_or_ge i text.toList.length with inside | outside
    · rw [List.getElem?_eq_getElem inside]
      exact iff_of_true Value.noConfusion inside
    · rw [List.getElem?_eq_none outside]
      exact iff_of_false (fun other => other rfl) outside.not_gt
  charAt i small := by
    refine ⟨_, callMethod_charAt host text next small, ?_⟩
    rw [ne_eq, ← String.toList_inj, String.toList_ofList, ← String.length_toList]
    simp
  split := by
    refine ⟨_, callMethod_split host text [.string ""] next, ?_⟩
    rw [List.length_map, ← String.length_toList]
    exact List.length_map _
  indexOf needle := callMethod_indexOf host text next needle
  substring short needle position found := by
    have small := (indexOf?_le_unitLength found).trans_lt short
    have called := callMethod_substring host text next (Nat.le_add_right position _) small
    rw [← add_ofNat small] at called
    refine ⟨_, called, ?_⟩
    rw [Nat.add_sub_cancel_left, ← String.toList_inj, String.toList_ofList, take_found_iff found,
      String.length_toList, String.length_toList]

/-- **A text of two characters and four units**: its third element is undefined, and as many
characters as the first one has units are both. -/
theorem units_of_faces :
    property (.string "😀😀") (.string "length") = .ok (.ofNat 4) ∧
      property (.string "😀") (.string "length") = .ok (.ofNat 2) ∧
      property (.string "😀😀") (.ofNat 2) = .ok .undefined ∧
      ∀ host,
        Expr.callMethod host (.string "😀😀") (.string "charAt") [.ofNat 2] 0 =
          .ok (.string "", 0) ∧
        Expr.callMethod host (.string "😀😀") (.string "split") [.string ""] 0 =
          .ok (.array 0 [.string "😀", .string "😀"], 1) ∧
        Expr.callMethod host (.string "😀😀") (.string "indexOf") [.string "😀"] 0 =
          .ok (.ofNat 0, 0) ∧
        Expr.callMethod host (.string "😀😀") (.string "substring") [.ofNat 0, .ofNat 2] 0 =
          .ok (.string "😀😀", 0) :=
  ⟨property_length "😀😀", property_length "😀", property_position "😀😀" (by decide), fun host =>
    ⟨callMethod_charAt host "😀😀" 0 (by decide), callMethod_split host "😀😀" [.string ""] 0,
      callMethod_indexOf host "😀😀" 0 "😀",
      callMethod_substring host "😀😀" 0 (by decide) (by decide)⟩⟩

end DataBind
