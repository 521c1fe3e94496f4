/-
**Which bindings an element has.**

Of the entries of a binding attribute the first one of each kind counts, in the order written.

* `firstOfKinds`, `bindingsOf`: the bindings that count;
* `mem_bindingsOf`: a binding counts if it is the first entry of its kind;
* `conflict?_eq_none_iff`: there is no conflict if at most one kind controls the content;
* `result_parseContainer`: the bindings of an attribute, or the error in it;
* `repetitions`, `warnings_parseContainer`: the other entries of known kinds, in the order written,
  are warned about.
-/

import DataBind.Binding.Container
import DataBind.Binding.Directive
import Mathlib.Data.List.Nodup

namespace DataBind.Binding

variable {kind : Kind} {seen : List Kind}

/-! ### The first bindings of their kinds -/

/-- The bindings whose kinds have not been seen, in the order given. -/
def firstOfKinds (seen : List Kind) : List Binding → List Binding
  | [] => []
  | binding :: rest =>
    if binding.kind ∈ seen then firstOfKinds seen rest
    else binding :: firstOfKinds (binding.kind :: seen) rest

/-- Repeated kinds are warned about, and are no error. -/
theorem result_distinctKinds (tag : String) (seen : List Kind) (bindings : List Binding) :
    (distinctKinds tag seen bindings).result = .ok (firstOfKinds seen bindings) := by
  induction bindings generalizing seen with
  | nil => rfl
  | cons binding rest ih =>
    rw [distinctKinds, firstOfKinds]
    by_cases repeated : binding.kind ∈ seen
    · rw [if_pos repeated, if_pos repeated]
      exact ih seen
    · rw [if_neg repeated, if_neg repeated]
      simp only [bind, ih, pure]

/-- A kind that has not been seen has the same first binding. -/
theorem find?_firstOfKinds (unseen : kind ∉ seen) (bindings : List Binding) :
    (firstOfKinds seen bindings).find? (fun binding => binding.kind == kind) =
      bindings.find? fun binding => binding.kind == kind := by
  induction bindings generalizing seen with
  | nil => rfl
  | cons binding rest ih =>
    rw [firstOfKinds, List.find?_cons]
    by_cases repeated : binding.kind ∈ seen
    · have other : (binding.kind == kind) = false :=
        beq_false_of_ne fun same => unseen (same ▸ repeated)
      rw [if_pos repeated, other, ih unseen]
    · rw [if_neg repeated, List.find?_cons]
      by_cases same : binding.kind = kind
      · rw [beq_iff_eq.mpr same]
      · have later : kind ∉ binding.kind :: seen := by
          rw [List.mem_cons, not_or]
          exact ⟨fun equal => same equal.symm, unseen⟩
        rw [beq_false_of_ne same, ih later]

/-! ### The entries of an attribute -/

variable {entries : List (String × String)}

/-- The bindings that count among the entries of a binding attribute. -/
def bindingsOf (entries : List (String × String)) : List Binding :=
  firstOfKinds [] (entries.filterMap ofEntry?)

/-- The value of a kind: that of the first entry with its name. -/
def valueOf? (kind : Kind) (entries : List (String × String)) : Option String :=
  (entries.find? fun entry => Kind.ofName? entry.1 == some kind).map Prod.snd

theorem nodup_bindingsOf (entries : List (String × String)) :
    ((bindingsOf entries).map Binding.kind).Nodup :=
  (distinctKinds_nodup (result_distinctKinds "" [] (entries.filterMap ofEntry?))).1

/-- The binding of a kind has the value of the kind. -/
theorem find?_bindingsOf (kind : Kind) (entries : List (String × String)) :
    (bindingsOf entries).find? (fun binding => binding.kind == kind) =
      (valueOf? kind entries).map (Binding.mk kind) := by
  rw [bindingsOf, find?_firstOfKinds List.not_mem_nil, valueOf?]
  induction entries with
  | nil => rfl
  | cons entry rest ih =>
    obtain ⟨name, source⟩ := entry
    rw [List.find?_cons]
    cases known : Kind.ofName? name with
    | none =>
      have unknown : ofEntry? (name, source) = none := by rw [ ofEntry?, known, Option.map_none]
      rw [List.filterMap_cons_none unknown, ih]
      rfl
    | some found =>
      have named : ofEntry? (name, source) = some ⟨found, source⟩ := by
        rw [ ofEntry?, known, Option.map_some]
      rw [List.filterMap_cons_some named, List.find?_cons]
      by_cases same : found = kind
      · subst same
        simp
      · have other : (found == kind) = false := beq_false_of_ne same
        simp [other, ih]

/-- **A binding counts** if it is the first entry of its kind. -/
theorem mem_bindingsOf {source : String} :
    ⟨kind, source⟩ ∈ bindingsOf entries ↔ valueOf? kind entries = some source := by
  have found := find?_bindingsOf kind entries
  constructor
  · intro member
    cases value : valueOf? kind entries with
    | none =>
      rw [value, Option.map_none, List.find?_eq_none] at found
      exact absurd (beq_self_eq_true kind) (found _ member)
    | some other =>
      rw [value, Option.map_some] at found
      have same := List.inj_on_of_nodup_map (nodup_bindingsOf entries)
        (List.mem_of_find?_eq_some found) member rfl
      exact congrArg some (congrArg Binding.source same)
  · intro value
    rw [value, Option.map_some] at found
    exact List.mem_of_find?_eq_some found

/-- A property of the bindings that count, by their kinds. -/
theorem forall_mem_bindingsOf {holds : Binding → Prop} :
    (∀ binding ∈ bindingsOf entries, holds binding) ↔
      ∀ kind source, valueOf? kind entries = some source → holds ⟨kind, source⟩ :=
  ⟨fun all _ _ value => all _ (mem_bindingsOf.mpr value),
    fun all binding member => all binding.kind binding.source (mem_bindingsOf.mp member)⟩

/-! ### Conflicts -/

/-- **There is no conflict** if at most one kind controls the content. -/
theorem conflict?_eq_none_iff : conflict? (bindingsOf entries) = none ↔
    ∀ first second, first.controlsContent = true → second.controlsContent = true →
      (valueOf? first entries).isSome = true → (valueOf? second entries).isSome = true →
      first = second := by
  have distinct := nodup_bindingsOf entries
  have listed : ∀ kind, kind.controlsContent = true → (valueOf? kind entries).isSome = true →
      ∃ binding, binding.kind = kind ∧ binding ∈
        (bindingsOf entries).filter fun binding => binding.kind.controlsContent := by
    intro kind controls named
    obtain ⟨source, value⟩ := Option.isSome_iff_exists.mp named
    exact ⟨⟨kind, source⟩, rfl, List.mem_filter.mpr ⟨mem_bindingsOf.mpr value, controls⟩⟩
  unfold conflict?
  split
  · rename_i first second others two
    have members : ∀ binding ∈ [first, second], binding ∈ bindingsOf entries ∧
        binding.kind.controlsContent = true := by
      intro binding member
      have among : binding ∈
          (bindingsOf entries).filter fun binding => binding.kind.controlsContent := by
        rw [two]
        exact List.mem_append_left others member
      exact List.mem_filter.mp among
    obtain ⟨inside, controls⟩ := members first (by simp)
    obtain ⟨also, controlsToo⟩ := members second (by simp)
    have different : first.kind ≠ second.kind := by
      have apart : (((bindingsOf entries).filter fun binding =>
          binding.kind.controlsContent).map Binding.kind).Nodup :=
        distinct.sublist (List.filter_sublist.map Binding.kind)
      rw [two, List.map_cons, List.map_cons, List.nodup_cons] at apart
      exact fun same => apart.1 (same ▸ List.mem_cons_self)
    refine ⟨fun impossible => (by cases impossible), fun single => absurd ?_ different⟩
    exact single _ _ controls controlsToo (Option.isSome_of_mem (mem_bindingsOf.mp inside))
      (Option.isSome_of_mem (mem_bindingsOf.mp also))
  · rename_i few
    refine ⟨fun _ first second controls controlsToo named namedToo => ?_, fun _ => rfl⟩
    obtain ⟨one, rfl, here⟩ := listed first controls named
    obtain ⟨two, rfl, also⟩ := listed second controlsToo namedToo
    revert here also few
    cases (bindingsOf entries).filter fun binding => binding.kind.controlsContent with
    | nil => simp
    | cons head tail =>
      cases tail with
      | nil =>
        intro _ here also
        rw [List.mem_singleton.mp here, List.mem_singleton.mp also]
      | cons next others => exact fun few => absurd rfl (few head next others)

/-- **The bindings of an attribute**: those that count, or the error that keeps the attribute from
being read, or that of a conflict. -/
theorem result_parseContainer (source tag : String) :
    (parseContainer source tag).result =
      match entriesOf source with
      | .error error => .error error
      | .ok entries =>
        match conflict? (bindingsOf entries) with
        | some error => .error error
        | none => .ok (bindingsOf entries) := by
  rw [parseContainer]
  cases entriesOf source with
  | error error => rfl
  | ok entries =>
    simp only [bind, Checked.lift, result_distinctKinds]
    show (match conflict? (bindingsOf entries) with
      | some error => Checked.fail error
      | none => pure (bindingsOf entries)).result = _
    cases conflict? (bindingsOf entries) with
    | some error => rfl
    | none => rfl

/-- An attribute is read as the bindings that count, and they do not conflict. -/
theorem exists_of_parseContainer {source tag : String} {bindings : List Binding}
    (parsed : (parseContainer source tag).result = .ok bindings) :
    ∃ entries, entriesOf source = .ok entries ∧ bindings = bindingsOf entries ∧
      conflict? bindings = none := by
  rw [result_parseContainer] at parsed
  cases read : entriesOf source with
  | error error =>
    rw [read] at parsed
    cases parsed
  | ok entries =>
    rw [read] at parsed
    simp only at parsed
    cases conflict : conflict? (bindingsOf entries) with
    | some error =>
      rw [conflict] at parsed
      cases parsed
    | none =>
      rw [conflict] at parsed
      cases parsed
      exact ⟨entries, rfl, rfl, conflict⟩

/-! ### Repetitions -/

/-- The members of a list that repeat an earlier one, in order. -/
def repetitions (kinds : List Kind) : List Kind :=
  (kinds.zipIdx.filter fun entry => entry.1 ∈ kinds.take entry.2).map Prod.fst

theorem repetitions_concat (kinds : List Kind) (kind : Kind) :
    repetitions (kinds ++ [kind]) = repetitions kinds ++ if kind ∈ kinds then [kind] else [] := by
  have front : (kinds.zipIdx.filter fun entry => entry.1 ∈ (kinds ++ [kind]).take entry.2) =
      kinds.zipIdx.filter fun entry => entry.1 ∈ kinds.take entry.2 := by
    refine List.filter_congr fun (other, place) member => ?_
    have early : place ≤ kinds.length := by
      have bound := (List.mem_zipIdx member).2.1
      omega
    simp only [List.take_append_of_le_length early]
  unfold repetitions
  rw [List.zipIdx_append, List.filter_append, List.map_append, front]
  congr 1
  by_cases member : kind ∈ kinds <;> simp [List.zipIdx, member]

/-- **The entries that are dropped are warned about**, each once and in the order written. -/
theorem warnings_distinctKinds (tag : String) {seen before : List Kind}
    (known : ∀ kind, kind ∈ seen ↔ kind ∈ before) (bindings : List Binding) :
    (repetitions before).map (fun kind => .duplicateBinding tag kind.name) ++
        (distinctKinds tag seen bindings).warnings =
      (repetitions (before ++ bindings.map Binding.kind)).map fun kind =>
        .duplicateBinding tag kind.name := by
  induction bindings generalizing seen before with
  | nil => simp [distinctKinds, pure]
  | cons binding rest ih =>
    have step : before ++ (binding :: rest).map Binding.kind =
        (before ++ [binding.kind]) ++ rest.map Binding.kind := by simp
    rw [distinctKinds, step]
    by_cases repeated : binding.kind ∈ seen
    · have same : ∀ kind, kind ∈ seen ↔ kind ∈ before ++ [binding.kind] := by
        intro kind
        rw [List.mem_append, List.mem_singleton, known]
        refine ⟨Or.inl, fun either => either.elim id fun equal => ?_⟩
        exact equal ▸ (known _).mp repeated
      rw [if_pos repeated, ← ih same, repetitions_concat, if_pos ((known _).mp repeated)]
      simp [bind, Checked.warn]
    · have more : ∀ kind, kind ∈ binding.kind :: seen ↔ kind ∈ before ++ [binding.kind] := by
        intro kind
        rw [List.mem_append, List.mem_singleton, List.mem_cons, known, or_comm]
      rw [if_neg repeated, ← ih more, repetitions_concat, if_neg (mt (known _).mpr repeated)]
      simp [bind, result_distinctKinds, pure]

/-- The known kinds that the entries of a binding attribute name, in the order written. -/
def kindsOf (entries : List (String × String)) : List Kind :=
  entries.filterMap fun entry => Kind.ofName? entry.1

/-- **The entries of known kinds that do not count are warned about.** -/
theorem warnings_parseContainer {source : String} (read : entriesOf source = .ok entries)
    (tag : String) :
    (parseContainer source tag).warnings =
      (repetitions (kindsOf entries)).map fun kind => .duplicateBinding tag kind.name := by
  have kinds : (entries.filterMap ofEntry?).map Binding.kind = kindsOf entries := by
    rw [List.map_filterMap]
    refine List.filterMap_congr fun entry _ => ?_
    rw [ ofEntry?, Option.map_map]
    exact Option.map_id'
  have dropped := @warnings_distinctKinds tag [] [] (fun _ => Iff.rfl)
    (entries.filterMap ofEntry?)
  rw [List.nil_append, kinds] at dropped
  rw [← dropped, parseContainer, read]
  simp only [bind, Checked.lift, result_distinctKinds]
  show [] ++ (_ ++ (match conflict? (firstOfKinds [] (entries.filterMap ofEntry?)) with
    | some error => Checked.fail error
    | none => pure (firstOfKinds [] (entries.filterMap ofEntry?))).warnings) = _
  cases conflict? (firstOfKinds [] (entries.filterMap ofEntry?)) with
  | some error => exact (List.nil_append _).trans (List.append_nil _)
  | none => exact (List.nil_append _).trans (List.append_nil _)

/-! ### Comments -/

/-- A comment opens a block only for a kind that can be written as a comment. -/
theorem isContainerless_of_parseDirective {comment : String} {config : Config} {binding : Binding}
    (said : parseDirective comment config = some (.opening binding)) :
    binding.kind.isContainerless = true := by
  unfold parseDirective at said
  simp only at said
  split at said
  · cases said
  · split at said
    · cases said
    · obtain ⟨found, opened, same⟩ := Option.map_eq_some_iff.mp said
      cases same
      obtain ⟨rest, _, opened⟩ := Option.bind_eq_some_iff.mp opened
      unfold parseOpening? at opened
      split at opened
      · obtain ⟨⟨name, value⟩, _, opened⟩ := Option.bind_eq_some_iff.mp opened
        obtain ⟨kind, _, opened⟩ := Option.bind_eq_some_iff.mp opened
        simp only [Option.ite_none_right_eq_some, Bool.and_eq_true, Option.some.injEq] at opened
        obtain ⟨⟨containerless, _⟩, rfl⟩ := opened
        exact containerless
      · cases opened

end DataBind.Binding
