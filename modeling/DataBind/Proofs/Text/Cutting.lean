/-
**Cutting text at the first place of a kind.**

A text is cut at the first occurrence of a character or of a needle. Both parts put the text
together again, and the place of the cut is determined by that and by being the first.

* `UpTo`: a text that reaches up to the first place from which on something holds;
* `UpTo.unique`: a text has one such place;
* `takeWhile_append_stop`, `dropWhile_append_stop`: a span ends where its property does;
* `cutAt_eq_some_iff`, `cutAtText_eq_some_iff`: where a text is cut;
* `UpTo.not_infix_front`, `not_infix_of_cutAtText`: what stands before a needle does not contain it;
* `cutAt_eq_none_iff`, `cutAtText_eq_none_iff`: which texts are not cut;
* `cutAt_append_iff`, `cutAtText_append_iff`: what follows a cut has no effect on it.
-/

import DataBind.Text.Search
import Mathlib.Data.List.Infix

namespace DataBind.Text

/-! ### The first place of a kind -/

/-- A text that reaches up to the first place from which on `ends` holds. -/
structure UpTo (ends : List Char → Prop) (front rest : List Char) : Prop where
  here : ends rest
  first : ∀ back, back <:+ front → back ≠ [] → ¬ ends (back ++ rest)

namespace UpTo

variable {ends narrower : List Char → Prop} {front rest other later : List Char}

instance [DecidablePred ends] : Decidable (UpTo ends front rest) :=
  decidable_of_iff (ends rest ∧ ∀ back ∈ front.tails, back ≠ [] → ¬ ends (back ++ rest))
    ⟨fun both => ⟨both.1, fun back suffix => both.2 back ((List.mem_tails _ _).mpr suffix)⟩,
      fun reaches =>
        ⟨reaches.here, fun back member => reaches.first back ((List.mem_tails _ _).mp member)⟩⟩

theorem nil_iff : UpTo ends [] rest ↔ ends rest :=
  ⟨here, fun holds => ⟨holds, fun _ suffix nonempty =>
    absurd (List.suffix_nil.mp suffix) nonempty⟩⟩

theorem cons_iff {c : Char} :
    UpTo ends (c :: front) rest ↔ ¬ ends (c :: (front ++ rest)) ∧ UpTo ends front rest := by
  constructor
  · intro reaches
    exact ⟨reaches.first _ List.suffix_rfl (List.cons_ne_nil c front), reaches.here,
      fun back suffix => reaches.first back (suffix.trans (List.suffix_cons c front))⟩
  · rintro ⟨none, reaches⟩
    refine ⟨reaches.here, fun back suffix nonempty => ?_⟩
    rcases List.suffix_cons_iff.mp suffix with rfl | inside
    · exact none
    · exact reaches.first back inside nonempty

/-- A first place is seen through a map of the characters. -/
theorem map_iff {f : Char → Char} :
    UpTo ends (front.map f) (rest.map f) ↔ UpTo (fun text => ends (text.map f)) front rest := by
  induction front with
  | nil => simp only [List.map_nil, nil_iff]
  | cons c front ih => simp only [List.map_cons, cons_iff, ih, List.map_append]

/-- **A text has one first place** of a kind. -/
theorem unique (own : UpTo ends front rest) (foreign : UpTo ends other later)
    (same : front ++ rest = other ++ later) : front = other ∧ rest = later := by
  rcases List.append_eq_append_iff.mp same with ⟨gap, rfl, rfl⟩ | ⟨gap, rfl, rfl⟩
  · by_cases empty : gap = []
    · simp [empty]
    · exact absurd own.here (foreign.first gap (List.suffix_append front gap) empty)
  · by_cases empty : gap = []
    · simp [empty]
    · exact absurd foreign.here (own.first gap (List.suffix_append other gap) empty)

/-- The first place of a kind is the first of a narrower kind just if it is of that kind. -/
theorem narrow_iff (implies : ∀ text, narrower text → ends text) (own : UpTo ends front rest) :
    UpTo narrower front rest ↔ narrower rest :=
  ⟨here, fun holds =>
    ⟨holds, fun back suffix nonempty found => own.first back suffix nonempty (implies _ found)⟩⟩

/-- What stands behind a first place has no effect on it, if it has none on the kind. -/
theorem congr_rest (same : ∀ back, ends (back ++ rest) ↔ ends (back ++ later)) :
    UpTo ends front rest ↔ UpTo ends front later :=
  ⟨fun reaches => ⟨(same []).mp reaches.here, fun back suffix nonempty found =>
      reaches.first back suffix nonempty ((same back).mpr found)⟩,
    fun reaches => ⟨(same []).mpr reaches.here, fun back suffix nonempty found =>
      reaches.first back suffix nonempty ((same back).mp found)⟩⟩

/-- Where something holds somewhere, there is a first place. -/
theorem exists_of_suffix {text back : List Char} (suffix : back <:+ text) (holds : ends back) :
    ∃ front rest, text = front ++ rest ∧ UpTo ends front rest ∧ back <:+ rest := by
  induction text with
  | nil =>
    obtain rfl := List.suffix_nil.mp suffix
    exact ⟨[], [], rfl, nil_iff.mpr holds, List.suffix_rfl⟩
  | cons c text ih =>
    by_cases whole : ends (c :: text)
    · exact ⟨[], c :: text, rfl, nil_iff.mpr whole, suffix⟩
    · rcases List.suffix_cons_iff.mp suffix with rfl | inside
      · exact absurd holds whole
      · obtain ⟨front, rest, rfl, reaches, within⟩ := ih inside
        exact ⟨c :: front, rest, rfl, cons_iff.mpr ⟨whole, reaches⟩, within⟩

end UpTo

/-! ### Spans -/

section Spans

variable {p : Char → Bool} {front rest : List Char}

/-- A span ends where the property does. -/
theorem takeWhile_append_stop (all : ∀ c ∈ front, p c = true)
    (stop : ∀ c ∈ rest.head?, p c = false) : (front ++ rest).takeWhile p = front := by
  rw [List.takeWhile_append_of_pos all]
  cases rest with
  | nil => rw [List.takeWhile_nil, List.append_nil]
  | cons c others => rw [List.takeWhile_cons_of_neg (by simp [stop c rfl]), List.append_nil]

theorem dropWhile_append_stop (all : ∀ c ∈ front, p c = true)
    (stop : ∀ c ∈ rest.head?, p c = false) : (front ++ rest).dropWhile p = rest := by
  rw [List.dropWhile_append_of_pos all]
  cases rest with
  | nil => rfl
  | cons c others => rw [List.dropWhile_cons_of_neg (by simp [stop c rfl])]

end Spans

/-! ### Cuts -/

/-- **A text is cut at the first occurrence of a character.** -/
theorem cutAt_eq_some_iff {mark : Char} {text front rest : List Char} :
    cutAt mark text = some (front, rest) ↔ text = front ++ mark :: rest ∧ mark ∉ front := by
  induction text generalizing front with
  | nil => simp [cutAt]
  | cons c others ih =>
    rw [cutAt]
    by_cases same : c = mark
    · rw [if_pos same]
      cases front with
      | nil => simp [same]
      | cons d front =>
        simp only [Option.some.injEq, Prod.mk.injEq, reduceCtorEq, false_and, List.cons_append,
          List.cons.injEq, List.mem_cons, not_or, false_iff]
        rintro ⟨⟨equal, _⟩, different, _⟩
        exact different (same.symm.trans equal)
    · rw [if_neg same]
      cases front with
      | nil => simp [same]
      | cons d front =>
        have inside := @ih front
        simp only [Option.map_eq_some_iff, Prod.mk.injEq, Prod.exists, List.cons.injEq,
          List.cons_append, List.mem_cons, not_or] at inside ⊢
        constructor
        · rintro ⟨before, after, cut, ⟨rfl, rfl⟩, rfl⟩
          obtain ⟨whole, absent⟩ := inside.mp cut
          exact ⟨⟨rfl, whole⟩, Ne.symm same, absent⟩
        · rintro ⟨⟨rfl, whole⟩, _, absent⟩
          exact ⟨front, rest, inside.mpr ⟨whole, absent⟩, ⟨rfl, rfl⟩, rfl⟩

/-- **A text is cut at the first occurrence of a needle.** -/
theorem cutAtText_eq_some_iff {needle text front rest : List Char} (nonempty : needle ≠ []) :
    cutAtText needle text = some (front, rest) ↔
      text = front ++ (needle ++ rest) ∧ UpTo (needle <+: ·) front (needle ++ rest) := by
  induction text generalizing front with
  | nil => simp [cutAtText, nonempty]
  | cons c others ih =>
    rw [cutAtText]
    cases found : afterLead? needle (c :: others) with
    | some after =>
      have whole := afterLead?_eq_some.mp found
      simp only [Option.some.injEq, Prod.mk.injEq]
      constructor
      · rintro ⟨rfl, rfl⟩
        exact ⟨whole, UpTo.nil_iff.mpr (List.prefix_append needle after)⟩
      · rintro ⟨same, reaches⟩
        have own : UpTo (needle <+: ·) [] (needle ++ after) :=
          UpTo.nil_iff.mpr (List.prefix_append needle after)
        obtain ⟨rfl, rest⟩ := own.unique reaches (whole.symm.trans same)
        exact ⟨rfl, List.append_cancel_left rest⟩
    | none =>
      have missing : ¬ needle <+: c :: others := by
        rintro ⟨after, same⟩
        rw [afterLead?_eq_some.mpr same.symm] at found
        cases found
      cases front with
      | nil =>
        have other : c :: others ≠ needle ++ rest := fun same => missing ⟨rest, same.symm⟩
        simp [other]
      | cons d front =>
        have inside := @ih front
        simp only [Option.map_eq_some_iff, Prod.mk.injEq, Prod.exists, List.cons.injEq,
          List.cons_append, UpTo.cons_iff] at inside ⊢
        constructor
        · rintro ⟨before, after, cut, ⟨rfl, rfl⟩, rfl⟩
          obtain ⟨whole, reaches⟩ := inside.mp cut
          exact ⟨⟨rfl, whole⟩, whole ▸ missing, reaches⟩
        · rintro ⟨⟨rfl, whole⟩, _, reaches⟩
          exact ⟨front, rest, inside.mpr ⟨whole, reaches⟩, ⟨rfl, rfl⟩, rfl⟩

/-- What stands before the first place of a needle does not contain the needle. -/
theorem UpTo.not_infix_front {needle front rest : List Char} (nonempty : needle ≠ [])
    (reaches : UpTo (needle <+: ·) front rest) : ¬ needle <:+: front := by
  rintro inside
  obtain ⟨back, starts, suffix⟩ := List.infix_iff_prefix_suffix.mp inside
  refine reaches.first back suffix ?_ (starts.trans (List.prefix_append back rest))
  rintro rfl
  exact nonempty (List.prefix_nil.mp starts)

theorem not_infix_of_cutAtText {needle text front rest : List Char} (nonempty : needle ≠ [])
    (cut : cutAtText needle text = some (front, rest)) : ¬ needle <:+: front :=
  ((cutAtText_eq_some_iff nonempty).mp cut).2.not_infix_front nonempty

/-- A needle that starts in a text before another one lies in the text or overlaps the other. -/
theorem prefix_append_needle {needle back rest : List Char}
    (starts : needle <+: back ++ (needle ++ rest)) :
    needle <+: back ∨ ∃ tail, tail ≠ [] ∧ needle = back ++ tail ∧ tail <+: needle ++ rest := by
  rcases List.prefix_or_prefix_of_prefix starts (List.prefix_append back _) with
    inside | ⟨tail, same⟩
  · exact Or.inl inside
  · by_cases empty : tail = []
    · rw [empty, List.append_nil] at same
      exact Or.inl (same ▸ List.prefix_rfl)
    · refine Or.inr ⟨tail, empty, same.symm, ?_⟩
      rw [← List.prefix_append_right_inj back, same]
      exact starts

/-! ### Cuts of longer texts -/

theorem cutAt_eq_none_iff {mark : Char} {text : List Char} :
    cutAt mark text = none ↔ mark ∉ text := by
  rw [Option.eq_none_iff_forall_ne_some]
  constructor
  · intro uncut member
    obtain ⟨front, rest, whole, absent⟩ := List.eq_append_cons_of_mem member
    exact uncut (front, rest) (cutAt_eq_some_iff.mpr ⟨whole, absent⟩)
  · rintro absent ⟨front, rest⟩ cut
    exact absent (by simp [cutAt_eq_some cut])

theorem cutAtText_eq_none_iff {needle text : List Char} (nonempty : needle ≠ []) :
    cutAtText needle text = none ↔ ¬ needle <:+: text := by
  rw [Option.eq_none_iff_forall_ne_some]
  constructor
  · intro uncut inside
    obtain ⟨back, starts, suffix⟩ := List.infix_iff_prefix_suffix.mp inside
    obtain ⟨front, rest, whole, reaches, _⟩ := UpTo.exists_of_suffix suffix starts
    obtain ⟨after, same⟩ := reaches.here
    rw [← same] at whole reaches
    exact uncut (front, after) ((cutAtText_eq_some_iff nonempty).mpr ⟨whole, reaches⟩)
  · rintro absent ⟨front, rest⟩ cut
    exact absent ⟨front, rest, (cutAtText_eq_some cut).symm⟩

/-- **What follows a cut has no effect on it.** -/
theorem cutAt_append_iff {mark : Char} {text front rest : List Char} (more : List Char) :
    cutAt mark (text ++ more) = some (front, rest ++ more) ↔
      cutAt mark text = some (front, rest) := by
  rw [cutAt_eq_some_iff, cutAt_eq_some_iff, ← List.cons_append, ← List.append_assoc,
    List.append_left_inj]

/-- A text that is long enough starts with a needle whatever follows. -/
theorem prefix_append_iff {needle text : List Char} (long : needle.length ≤ text.length)
    (more : List Char) : needle <+: text ++ more ↔ needle <+: text :=
  ⟨fun starts => List.prefix_of_prefix_length_le starts (List.prefix_append text more) long,
    fun starts => starts.trans (List.prefix_append text more)⟩

theorem cutAtText_append_iff {needle text front rest : List Char} (nonempty : needle ≠ [])
    (more : List Char) :
    cutAtText needle (text ++ more) = some (front, rest ++ more) ↔
      cutAtText needle text = some (front, rest) := by
  have reaches : UpTo (needle <+: ·) front (needle ++ rest ++ more) ↔
      UpTo (needle <+: ·) front (needle ++ rest) := by
    refine UpTo.congr_rest fun back => ?_
    rw [← List.append_assoc]
    refine prefix_append_iff ?_ more
    simp only [List.length_append]
    omega
  rw [cutAtText_eq_some_iff nonempty, cutAtText_eq_some_iff nonempty, ← List.append_assoc needle,
    reaches, ← List.append_assoc front, List.append_left_inj]

theorem cutAt_suffix {mark : Char} {text front rest : List Char}
    (cut : cutAt mark text = some (front, rest)) : rest <:+ text := by
  rw [cutAt_eq_some cut]
  exact (List.suffix_cons mark rest).trans (List.suffix_append front _)

theorem cutAtText_suffix {needle text front rest : List Char}
    (cut : cutAtText needle text = some (front, rest)) : rest <:+ text := by
  rw [cutAtText_eq_some cut]
  exact List.suffix_append _ rest

end DataBind.Text
