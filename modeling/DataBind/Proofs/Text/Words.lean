/-
**Words, and lists without repetitions.**

Words are read back from the text that they are joined to by single spaces. Of a list that has an
element several times the first occurrences are kept, in order; dropping repetitions early changes
nothing.

* `IsToken`: a word as it can stand in a text; `isToken_of_mem_words`: words are so;
* `words_intercalate`: words joined by single spaces are the words of the whole;
* `FirstOccurrences`: a list with each element of another once, in the order of their first
  occurrences;
* `firstOccurrences_distinct`: what is left without repetitions;
* `distinct_filter_append`: repetitions may be dropped before a part of the list is taken out and
  another list follows.
-/

import DataBind.Text.Blank
import DataBind.Text.Search

namespace DataBind.Text

/-! ### Words -/

/-- A text that is one word. -/
def IsToken (name : String) : Prop :=
  name ≠ "" ∧ ∀ c ∈ name.toList, isBlank c = false

/-- The characters of words are no white space. -/
theorem solid_of_mem_wordsOf {text word : List Char} (member : word ∈ wordsOf text) :
    ∀ c ∈ word, isBlank c = false := by
  induction text generalizing word with
  | nil => cases member
  | cons c rest ih =>
    unfold wordsOf at member
    split at member
    · exact ih member
    · rename_i solid
      rw [Bool.not_eq_true] at solid
      split at member
      · rename_i next _ first others found
        rw [found] at ih
        split at member
        · rcases List.mem_cons.mp member with rfl | member
          · exact List.forall_mem_singleton.mpr solid
          · exact ih member
        · rcases List.mem_cons.mp member with rfl | member
          · exact List.forall_mem_cons.mpr ⟨solid, ih List.mem_cons_self⟩
          · exact ih (List.mem_cons_of_mem _ member)
      · rcases List.mem_cons.mp member with rfl | member
        · exact List.forall_mem_singleton.mpr solid
        · exact ih member

theorem isToken_of_mem_words {text name : String} (member : name ∈ words text) : IsToken name := by
  obtain ⟨word, found, rfl⟩ := List.mem_map.mp member
  refine ⟨fun empty => words_ne_nil _ word found ?_, ?_⟩
  · have none := congrArg String.toList empty
    rwa [String.toList_ofList] at none
  · rw [String.toList_ofList]
    exact solid_of_mem_wordsOf found

/-- A word that ends at white space or with the text is the first of the words. -/
theorem wordsOf_append {word rest : List Char} (nonempty : word ≠ [])
    (solid : ∀ c ∈ word, isBlank c = false) (ends : ∀ c ∈ rest.head?, isBlank c = true) :
    wordsOf (word ++ rest) = word :: wordsOf rest := by
  induction word with
  | nil => exact absurd rfl nonempty
  | cons c word ih =>
    obtain ⟨first, later⟩ := List.forall_mem_cons.mp solid
    rw [List.cons_append]
    conv => lhs; unfold wordsOf
    rw [if_neg (by simp [first])]
    cases word with
    | nil =>
      cases rest with
      | nil => rfl
      | cons d rest =>
        rw [List.nil_append]
        cases wordsOf (d :: rest) with
        | nil => rfl
        | cons next others => simp only [ends d rfl, if_true]
    | cons d word =>
      rw [ih (List.cons_ne_nil d word) later]
      simp only [List.cons_append, later d List.mem_cons_self, Bool.false_eq_true, if_false]

theorem wordsOf_intercalate {names : List (List Char)} (nonempty : ∀ name ∈ names, name ≠ [])
    (solid : ∀ name ∈ names, ∀ c ∈ name, isBlank c = false) :
    wordsOf ([' '].intercalate names) = names := by
  induction names with
  | nil => rfl
  | cons name names ih =>
    obtain ⟨own, others⟩ := List.forall_mem_cons.mp nonempty
    obtain ⟨characters, later⟩ := List.forall_mem_cons.mp solid
    cases names with
    | nil =>
      have none : ∀ c ∈ ([] : List Char).head?, isBlank c = true := by simp
      have whole := wordsOf_append own characters none
      rw [List.append_nil] at whole
      rw [List.intercalate_singleton, whole]
      rfl
    | cons next names =>
      rw [List.intercalate_cons_cons, List.append_assoc, wordsOf_append own characters (by
        rintro c ⟨⟩
        rfl)]
      exact congrArg _ (ih others later)

/-- **Words joined by single spaces** are read back. -/
theorem words_intercalate {names : List String} (tokens : ∀ name ∈ names, IsToken name) :
    words (" ".intercalate names) = names := by
  have characters : (" ".intercalate names).toList = [' '].intercalate (names.map String.toList) :=
    String.toList_intercalate
  rw [words, characters, wordsOf_intercalate, List.map_map]
  · exact (List.map_congr_left fun name _ => String.ofList_toList).trans (List.map_id names)
  · intro name member
    obtain ⟨name, found, rfl⟩ := List.mem_map.mp member
    exact fun empty => (tokens name found).1 (String.toList_eq_nil_iff.mp empty)
  · intro name member
    obtain ⟨name, found, rfl⟩ := List.mem_map.mp member
    exact (tokens name found).2

/-! ### First occurrences -/

section Distinct

variable {α : Type} [DecidableEq α] {elements seen other : List α}

/-- A list with each element of another once, in the order of their first occurrences. -/
structure FirstOccurrences (elements kept : List α) : Prop where
  nodup : kept.Nodup
  mem_iff : ∀ a, a ∈ kept ↔ a ∈ elements
  order : kept.Pairwise fun a b => elements.idxOf a < elements.idxOf b

/-- **A list has its first occurrences in one order only.** -/
theorem FirstOccurrences.unique {kept others : List α} (first : FirstOccurrences elements kept)
    (second : FirstOccurrences elements others) : kept = others := by
  have same : kept.Perm others := (List.perm_ext_iff_of_nodup first.nodup second.nodup).mpr
    fun a => (first.mem_iff a).trans (second.mem_iff a).symm
  refine List.Perm.eq_of_pairwise (fun a b _ _ before behind => ?_) first.order second.order same
  exact absurd before (Nat.lt_asymm behind)

open distinct (distinctFrom)

theorem distinct_eq (elements : List α) : distinct elements = distinctFrom [] elements := by
  cases elements with
  | nil => rfl
  | cons a rest => rw [distinct, distinctFrom, if_neg List.not_mem_nil]

theorem mem_distinctFrom {a : α} :
    a ∈ distinctFrom seen elements ↔ a ∈ elements ∧ a ∉ seen := by
  induction elements generalizing seen with
  | nil => simp [distinctFrom]
  | cons b rest ih =>
    rw [distinctFrom]
    by_cases known : b ∈ seen
    · rw [if_pos known, ih, List.mem_cons]
      constructor
      · exact fun ⟨inside, fresh⟩ => ⟨Or.inr inside, fresh⟩
      · rintro ⟨rfl | inside, fresh⟩
        · exact absurd known fresh
        · exact ⟨inside, fresh⟩
    · rw [if_neg known, List.mem_cons, ih, List.mem_cons, List.mem_cons, not_or]
      constructor
      · rintro (rfl | ⟨inside, _, fresh⟩)
        · exact ⟨Or.inl rfl, known⟩
        · exact ⟨Or.inr inside, fresh⟩
      · rintro ⟨rfl | inside, fresh⟩
        · exact Or.inl rfl
        · by_cases same : a = b
          · exact Or.inl same
          · exact Or.inr ⟨inside, same, fresh⟩

theorem idxOf_cons_of_ne {a b : α} (apart : b ≠ a) (rest : List α) :
    (b :: rest).idxOf a = rest.idxOf a + 1 := by
  rw [List.idxOf_cons, cond_eq_ite, if_neg (by simpa using apart)]

/-- The elements that have not been seen stand in the order of their first occurrences. -/
theorem order_distinctFrom :
    (distinctFrom seen elements).Pairwise fun a b => elements.idxOf a < elements.idxOf b := by
  induction elements generalizing seen with
  | nil => exact List.Pairwise.nil
  | cons b rest ih =>
    -- behind the first element all places are later by one
    have later : ∀ {kept : List α}, (∀ a ∈ kept, a ≠ b) →
        kept.Pairwise (fun a b => rest.idxOf a < rest.idxOf b) →
        kept.Pairwise fun a c => (b :: rest).idxOf a < (b :: rest).idxOf c := by
      intro kept others ordered
      refine ordered.imp_of_mem fun {a c} first second before => ?_
      rw [idxOf_cons_of_ne (Ne.symm (others a first)),
        idxOf_cons_of_ne (Ne.symm (others c second))]
      omega
    rw [distinctFrom]
    by_cases known : b ∈ seen
    · rw [if_pos known]
      refine later (fun a inside same => ?_) ih
      exact (mem_distinctFrom.mp inside).2 (same ▸ known)
    · rw [if_neg known]
      have others : ∀ a ∈ distinctFrom (b :: seen) rest, a ≠ b := fun a inside same =>
        (mem_distinctFrom.mp inside).2 (same ▸ List.mem_cons_self)
      refine List.pairwise_cons.mpr ⟨fun a inside => ?_, later others ih⟩
      rw [List.idxOf_cons_self, idxOf_cons_of_ne (Ne.symm (others a inside))]
      exact Nat.succ_pos _

/-- **What is left without repetitions** are the first occurrences. -/
theorem firstOccurrences_distinct (elements : List α) :
    FirstOccurrences elements (distinct elements) := by
  rw [distinct_eq]
  refine ⟨order_distinctFrom.imp ?_, fun a => by simp [mem_distinctFrom], order_distinctFrom⟩
  rintro a b before rfl
  exact Nat.lt_irrefl _ before

/-- Only what of a list has been seen matters. -/
theorem distinctFrom_congr (same : ∀ a ∈ elements, a ∈ seen ↔ a ∈ other) :
    distinctFrom seen elements = distinctFrom other elements := by
  induction elements generalizing seen other with
  | nil => rfl
  | cons a rest ih =>
    obtain ⟨own, later⟩ := List.forall_mem_cons.mp same
    rw [distinctFrom, distinctFrom]
    by_cases known : a ∈ seen
    · rw [if_pos known, if_pos (own.mp known), ih later]
    · rw [if_neg known, if_neg fun also => known (own.mpr also)]
      refine congrArg _ (ih fun b inside => ?_)
      rw [List.mem_cons, List.mem_cons, later b inside]

theorem distinctFrom_append (seen first second : List α) :
    distinctFrom seen (first ++ second) =
      distinctFrom seen first ++ distinctFrom (first ++ seen) second := by
  induction first generalizing seen with
  | nil => rfl
  | cons a first ih =>
    rw [List.cons_append, distinctFrom, distinctFrom, ih, ih]
    by_cases known : a ∈ seen
    · rw [if_pos known, if_pos known]
      refine congrArg _ (distinctFrom_congr fun b _ => ?_)
      rw [List.cons_append, List.mem_cons, or_iff_right_of_imp]
      rintro rfl
      exact List.mem_append_right first known
    · rw [if_neg known, if_neg known, List.cons_append]
      refine congrArg _ (congrArg _ (distinctFrom_congr fun b _ => ?_))
      simp only [List.mem_append, List.mem_cons, List.cons_append, or_left_comm]

/-- A part of the list may be taken out first. -/
theorem filter_distinctFrom (keeps : α → Bool) :
    (distinctFrom seen elements).filter keeps = distinctFrom seen (elements.filter keeps) := by
  induction elements generalizing seen with
  | nil => rfl
  | cons a rest ih =>
    rw [distinctFrom, List.filter_cons]
    by_cases known : a ∈ seen
    · rw [if_pos known, ih]
      by_cases kept : keeps a = true
      · rw [if_pos kept, distinctFrom, if_pos known]
      · rw [if_neg kept]
    · rw [if_neg known, List.filter_cons, ih]
      by_cases kept : keeps a = true
      · rw [if_pos kept, if_pos kept, distinctFrom, if_neg known]
      · rw [if_neg kept, if_neg kept]
        refine distinctFrom_congr fun b inside => ?_
        have apart : b ≠ a := by
          rintro rfl
          exact kept (List.mem_filter.mp inside).2
        rw [List.mem_cons, or_iff_right apart]

/-- A list without repetitions stays as it is. -/
theorem distinctFrom_of_nodup (nodup : elements.Nodup) (fresh : ∀ a ∈ elements, a ∉ seen) :
    distinctFrom seen elements = elements := by
  induction elements generalizing seen with
  | nil => rfl
  | cons a rest ih =>
    obtain ⟨apart, later⟩ := List.nodup_cons.mp nodup
    obtain ⟨own, others⟩ := List.forall_mem_cons.mp fresh
    rw [distinctFrom, if_neg own, ih later fun b inside => ?_]
    rw [List.mem_cons, not_or]
    exact ⟨fun same => apart (same ▸ inside), others b inside⟩

/-- **Repetitions may be dropped early**, before a part of the list is taken out and another list
follows. -/
theorem distinct_filter_append (keeps : α → Bool) (first second : List α) :
    distinct ((distinct first).filter keeps ++ second) =
      distinct (first.filter keeps ++ second) := by
  have single : ((distinct first).filter keeps).Nodup :=
    (firstOccurrences_distinct first).nodup.filter keeps
  have whole : (distinct first).filter keeps = distinctFrom [] (first.filter keeps) := by
    rw [distinct_eq, filter_distinctFrom]
  calc distinct ((distinct first).filter keeps ++ second)
      = (distinct first).filter keeps ++ distinctFrom ((distinct first).filter keeps) second := by
        rw [distinct_eq, distinctFrom_append, List.append_nil,
          distinctFrom_of_nodup single fun _ _ => List.not_mem_nil]
    _ = distinctFrom [] (first.filter keeps) ++ distinctFrom (first.filter keeps) second := by
        rw [← whole]
        refine congrArg _ (distinctFrom_congr fun b _ => ?_)
        rw [whole, mem_distinctFrom, and_iff_left List.not_mem_nil]
    _ = distinct (first.filter keeps ++ second) := by
        rw [distinct_eq, distinctFrom_append, List.append_nil]

theorem distinct_append (first second : List α) :
    distinct (distinct first ++ second) = distinct (first ++ second) := by
  have all : ∀ elements : List α, elements.filter (fun _ => true) = elements := fun elements =>
    List.filter_eq_self.mpr fun _ _ => rfl
  have whole := distinct_filter_append (fun _ => true) first second
  rwa [all, all] at whole

end Distinct

end DataBind.Text
