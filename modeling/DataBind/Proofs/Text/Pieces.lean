/-
**The pieces of a text between the occurrences of a needle.**

A text is split at the first place of the needle, and what stands behind it is split on. So the
pieces joined with the needle are the text again, and none of them contains the needle.

* `pieces_of_cut`, `pieces_of_uncut`: a text is split at the first place of the needle, if any;
* `intercalate_pieces`: the pieces joined with the needle are the text;
* `not_infix_of_mem_pieces`: no piece contains the needle.
-/

import DataBind.Proofs.Text.Cutting

namespace DataBind.Text

variable {needle text front rest : List Char}

theorem pieces_ne_nil (needle text : List Char) : pieces needle text ≠ [] :=
  piecesFrom_ne_nil needle 0 text

/-- Characters to be passed over are dropped. -/
theorem piecesFrom_eq (needle : List Char) (skip : Nat) (text : List Char) :
    piecesFrom needle skip text = pieces needle (text.drop skip) := by
  induction text generalizing skip with
  | nil =>
    rw [List.drop_nil]
    cases skip <;> rfl
  | cons c text ih =>
    cases skip with
    | zero => rfl
    | succ skip => exact ih skip

/-- **A text is split at the first place of the needle**, and then what stands behind it. -/
theorem pieces_of_cut (nonempty : needle ≠ []) (cut : cutAtText needle text = some (front, rest)) :
    pieces needle text = front :: pieces needle rest := by
  induction text generalizing front with
  | nil => simp [cutAtText, nonempty] at cut
  | cons c text ih =>
    rw [cutAtText] at cut
    rw [pieces, piecesFrom]
    cases lead : afterLead? needle (c :: text) with
    | some after =>
      rw [lead] at cut
      cases cut
      have behind : text.drop (needle.length - 1) = rest := by
        have whole := afterLead?_eq_some.mp lead
        obtain ⟨first, others, rfl⟩ := List.exists_cons_of_ne_nil nonempty
        rw [List.cons_append, List.cons.injEq] at whole
        rw [whole.2, List.length_cons, Nat.add_sub_cancel, List.drop_left]
      rw [Option.isSome_some, if_pos rfl, piecesFrom_eq, behind]
    | none =>
      rw [lead] at cut
      obtain ⟨⟨before, after⟩, later, same⟩ := Option.map_eq_some_iff.mp cut
      cases same
      have split : piecesFrom needle 0 text = before :: pieces needle rest := ih later
      rw [if_neg (by simp), split]

/-- Without the needle a text is one piece. -/
theorem pieces_of_uncut (uncut : cutAtText needle text = none) :
    pieces needle text = [text] := by
  induction text with
  | nil => rfl
  | cons c text ih =>
    rw [cutAtText] at uncut
    rw [pieces, piecesFrom]
    cases lead : afterLead? needle (c :: text) with
    | some after =>
      rw [lead] at uncut
      cases uncut
    | none =>
      rw [lead] at uncut
      have single : piecesFrom needle 0 text = [text] := ih (Option.map_eq_none_iff.mp uncut)
      rw [if_neg (by simp), single]

/-- What holds of a text without the needle, and of one with it if it holds of what stands behind
its first place, holds of every text. -/
theorem cut_induction {motive : List Char → Prop} (nonempty : needle ≠ [])
    (uncut : ∀ text, cutAtText needle text = none → motive text)
    (cut : ∀ text front rest, cutAtText needle text = some (front, rest) → motive rest →
      motive text) (text : List Char) : motive text := by
  induction length : text.length using Nat.strong_induction_on generalizing text with
  | _ size ih =>
    cases found : cutAtText needle text with
    | none => exact uncut text found
    | some parts =>
      have whole := congrArg List.length (cutAtText_eq_some found)
      have positive := List.length_pos_iff.mpr nonempty
      rw [List.length_append, List.length_append] at whole
      exact cut text parts.1 parts.2 found (ih _ (by omega) parts.2 rfl)

/-- **The pieces joined with the needle** are the text. -/
theorem intercalate_pieces (nonempty : needle ≠ []) (text : List Char) :
    needle.intercalate (pieces needle text) = text := by
  induction text using cut_induction nonempty with
  | uncut text none => rw [pieces_of_uncut none, List.intercalate_singleton]
  | cut text front rest cut ih =>
    rw [pieces_of_cut nonempty cut, List.intercalate_cons_of_ne_nil (pieces_ne_nil needle rest), ih,
      cutAtText_eq_some cut]

/-- **No piece contains the needle.** -/
theorem not_infix_of_mem_pieces (nonempty : needle ≠ []) :
    ∀ piece ∈ pieces needle text, ¬ needle <:+: piece := by
  induction text using cut_induction nonempty with
  | uncut text none =>
    rw [pieces_of_uncut none, List.forall_mem_singleton]
    exact (cutAtText_eq_none_iff nonempty).mp none
  | cut text front rest cut ih =>
    rw [pieces_of_cut nonempty cut, List.forall_mem_cons]
    exact ⟨not_infix_of_cutAtText nonempty cut, ih⟩

end DataBind.Text
