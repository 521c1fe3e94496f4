/-
**The slots of a fragment are a forest.**

A node is appended in steps: the checks come first, then its id is written down where it belongs,
and its slot comes last. So a call that fails has changed nothing, and after any calls every id
stands in one place, behind all ids before it. What is read from markup is appended in document
order.

* `Fragment.appendInPlace`: appending step by step on a fragment that changes;
* `Fragment.run_appendInPlace`: it is `Fragment.append`, and changes nothing if it fails;
* `Fragment.Forest`: the ids among the roots and children are the recorded ones, in order;
* `Fragment.Forest.mentions_perm`: so every id stands in one place;
* `Builder.Numbered`: document order counts the nodes of a builder, which every event keeps;
* `nodeCount`, `parse_cases`: markup is read into as many nodes as it stands for, in document order;
* `Slot.Regular`: what holds of every node of markup that has been read;
* `forest_of_appends`: all of this after any calls, and of all markup that is accepted.
-/

import DataBind.Proofs.Markup.RoundTrip

namespace DataBind.Markup

open DataBind.Text DataBind.Markup.Tree

/-! ### Appending in steps -/

namespace Fragment

/-- The fragment with the id of a node to come behind its roots. -/
def linkRoot (fragment : Fragment) : Fragment :=
  { fragment with roots := fragment.roots ++ [fragment.size] }

/-- The fragment with the id of a node to come behind the children of a node. -/
def linkChild (parent : NodeId) (fragment : Fragment) : Fragment where
  slots := fragment.slots.modify parent fun slot =>
    { slot with children := slot.children ++ [fragment.size] }
  roots := fragment.roots
  ordered := by
    intro id slot found child member
    rw [Array.getElem?_modify] at found
    split at found
    · rename_i same
      subst same
      obtain ⟨before, present, rfl⟩ := Option.map_eq_some_iff.mp found
      rcases List.mem_append.mp member with old | new
      · exact fragment.ordered parent before present child old
      · rw [List.mem_singleton.mp new]
        exact (Array.getElem?_eq_some_iff.mp present).1
    · exact fragment.ordered id slot found child member

/-- The fragment with one more slot. -/
def create (parent : Option NodeId) (content : Content) (fragment : Fragment) : Fragment where
  slots := fragment.slots.push ⟨content, parent, []⟩
  roots := fragment.roots
  ordered := by
    intro id slot found child member
    rw [Array.getElem?_push] at found
    split at found
    · cases found
      cases member
    · exact fragment.ordered id slot found child member

/-- Writes the id of a node to come down where it belongs; only elements have children. -/
def link : Option NodeId → EStateM AppendError Fragment Unit
  | none => modify linkRoot
  | some owner => do
    match (← get).slots[owner]? with
    | none => throw (.invalidParent owner)
    | some slot =>
      if slot.content.isElement then modify (linkChild owner)
      else throw (.parentNotElement owner)

/-- **Appends a node step by step**, and gives its id. What has been changed before a failure stays
changed. -/
def appendInPlace (parent : Option NodeId) (content : Content) :
    EStateM AppendError Fragment NodeId := do
  let id := (← get).size
  if capacity ≤ id then throw .tooManyNodes
  link parent
  modify (create parent content)
  return id

/-- **Appending in steps is appending at once**; if it fails, nothing has been changed. -/
theorem run_appendInPlace (fragment : Fragment) (parent : Option NodeId) (content : Content) :
    (appendInPlace parent content).run fragment =
      match fragment.append parent content with
      | .ok grown => .ok fragment.size grown
      | .error cause => .error cause fragment := by
  unfold append
  by_cases full : capacity ≤ fragment.size
  · simp [appendInPlace, full]
  · cases parent with
    | none =>
      simp [appendInPlace, link, full]
      rfl
    | some owner =>
      by_cases present : owner < fragment.size
      · have found : fragment.slots[owner]? = some fragment.slots[Fin.mk owner present] :=
          Array.getElem?_eq_getElem present
        cases element : fragment.slots[Fin.mk owner present].content.isElement with
        | true =>
          simp only [dif_pos present, element]
          simp [appendInPlace, link, full, found, element]
          rfl
        | false =>
          simp only [dif_pos present, element]
          simp [appendInPlace, link, full, found, element]
      · have absent : fragment.slots[owner]? = none :=
          Array.getElem?_eq_none (Nat.le_of_not_lt present)
        simp [appendInPlace, link, full, present, absent]

/-- The fragment after a call, successful or not. -/
def attempt (fragment : Fragment) (call : Option NodeId × Content) : Fragment :=
  match (appendInPlace call.1 call.2).run fragment with
  | .ok _ after => after
  | .error _ after => after

/-- The fragment after some calls, each of them successful or not. -/
def attemptAll (calls : List (Option NodeId × Content)) : Fragment :=
  calls.foldl attempt empty

theorem Grown.attempt {fragment : Fragment} (grown : fragment.Grown)
    (call : Option NodeId × Content) : (fragment.attempt call).Grown := by
  unfold Fragment.attempt
  rw [run_appendInPlace]
  cases appended : fragment.append call.1 call.2 with
  | ok next => exact .append grown appended
  | error cause => exact grown

/-- What calls have made has grown. -/
theorem grown_attemptAll (calls : List (Option NodeId × Content)) : (attemptAll calls).Grown := by
  have fold : ∀ (calls : List (Option NodeId × Content)) (fragment : Fragment), fragment.Grown →
      (calls.foldl Fragment.attempt fragment).Grown := by
    intro calls
    induction calls with
    | nil => exact fun _ grown => grown
    | cons call rest ih => exact fun fragment grown => ih _ (grown.attempt call)
  exact fold calls empty .empty

/-! ### Forests -/

/-- **The ids among the roots and the children of a fragment are those that its slots record**, in
increasing order, and parents are elements that come before their children. -/
structure Forest (fragment : Fragment) : Prop where
  roots_increasing : fragment.roots.Pairwise (· < ·)
  children_increasing : ∀ (id : NodeId) (slot : Slot), fragment.slots[id]? = some slot →
    slot.children.Pairwise (· < ·)
  mem_roots_iff : ∀ id, id ∈ fragment.roots ↔
    ∃ slot, fragment.slots[id]? = some slot ∧ slot.parent = none
  mem_children_iff : ∀ (id owner : NodeId) (above : Slot), fragment.slots[owner]? = some above →
    (id ∈ above.children ↔ ∃ slot, fragment.slots[id]? = some slot ∧ slot.parent = some owner)
  parents : ∀ (id owner : NodeId) (slot : Slot), fragment.slots[id]? = some slot →
    slot.parent = some owner → owner < id ∧
      ∃ above, fragment.slots[owner]? = some above ∧ above.content.isElement = true

theorem forest_empty : empty.Forest where
  roots_increasing := List.Pairwise.nil
  children_increasing := fun _ _ found => by cases found
  mem_roots_iff := fun _ => ⟨fun member => (by cases member), fun ⟨_, found, _⟩ => by cases found⟩
  mem_children_iff := fun _ _ _ found => by cases found
  parents := fun _ _ _ found => by cases found

section Append

variable {fragment grown : Fragment} {parent : Option NodeId} {content : Content}

/-- The slots after an append. -/
theorem slots_append (appended : fragment.append parent content = .ok grown) (id : NodeId) :
    grown.slots[id]? =
      if id = fragment.size then some ⟨content, parent, []⟩
      else (fragment.slots[id]?).map fun slot =>
        if parent = some id then { slot with children := slot.children ++ [fragment.size] }
        else slot := by
  rcases append_cases appended with ⟨rfl, rfl⟩ | ⟨owner, present, rfl, _, rfl⟩
  · rw [slots_appendRoot]
    simp
  · rw [slots_appendChild]
    simp only [Option.some.injEq, eq_comm]

theorem roots_append (appended : fragment.append parent content = .ok grown) :
    grown.roots = if parent = none then fragment.roots ++ [fragment.size] else fragment.roots := by
  rcases append_cases appended with ⟨rfl, rfl⟩ | ⟨owner, present, rfl, _, rfl⟩
  · rfl
  · rfl

/-- The parents before an append stay. -/
theorem parent_append (appended : fragment.append parent content = .ok grown) (id : NodeId) :
    (grown.slots[id]?).map Slot.parent =
      if id = fragment.size then some parent else (fragment.slots[id]?).map Slot.parent := by
  rw [slots_append appended]
  split
  · rfl
  · rw [Option.map_map]
    refine congrArg (fun f => (fragment.slots[id]?).map f) (funext fun slot => ?_)
    show (if parent = some id then _ else _ : Slot).parent = _
    split <;> rfl

/-- Elements stay elements. -/
theorem isElement_append (appended : fragment.append parent content = .ok grown) {own : NodeId}
    {slot : Slot} (found : fragment.slots[own]? = some slot)
    (element : slot.content.isElement = true) :
    ∃ after, grown.slots[own]? = some after ∧ after.content.isElement = true := by
  have present : own < fragment.size := (Array.getElem?_eq_some_iff.mp found).1
  have kept := content_of_append appended own
  rw [if_neg (Nat.ne_of_lt present), found] at kept
  obtain ⟨after, now, same⟩ := Option.map_eq_some_iff.mp kept
  exact ⟨after, now, same ▸ element⟩

/-- An id after increasing ones. -/
theorem pairwise_concat {ids : List NodeId} {last : NodeId} (increasing : ids.Pairwise (· < ·))
    (earlier : ∀ id ∈ ids, id < last) : (ids ++ [last]).Pairwise (· < ·) := by
  refine List.pairwise_append.mpr ⟨increasing, List.pairwise_singleton _ _, ?_⟩
  intro id member other same
  rw [List.mem_singleton.mp same]
  exact earlier id member

/-- No slot records a node to come as its parent. -/
theorem Forest.not_recorded (forest : fragment.Forest) (id : NodeId) :
    (fragment.slots[id]?).map Slot.parent ≠ some (some fragment.size) := by
  intro recorded
  obtain ⟨slot, old, same⟩ := Option.map_eq_some_iff.mp recorded
  obtain ⟨_, _, present, _⟩ := forest.parents id fragment.size slot old same
  exact Nat.lt_irrefl _ (Array.getElem?_eq_some_iff.mp present).1

/-- **An append keeps the forest.** -/
theorem Forest.append (forest : fragment.Forest) (bounded : fragment.Bounded)
    (appended : fragment.append parent content = .ok grown) : grown.Forest where
  roots_increasing := by
    rw [roots_append appended]
    split
    · exact pairwise_concat forest.roots_increasing bounded.roots
    · exact forest.roots_increasing
  children_increasing := by
    intro id slot found
    rw [slots_append appended] at found
    split at found
    · cases found
      exact List.Pairwise.nil
    · obtain ⟨before, old, rfl⟩ := Option.map_eq_some_iff.mp found
      have increasing := forest.children_increasing id before old
      split
      · exact pairwise_concat increasing (bounded.children id before old)
      · exact increasing
  mem_roots_iff := by
    intro id
    rw [← Option.map_eq_some_iff, parent_append appended, roots_append appended]
    by_cases new : id = fragment.size
    · have absent : id ∉ fragment.roots := fun member =>
        Nat.lt_irrefl _ (new ▸ bounded.roots id member)
      rw [if_pos new, Option.some.injEq]
      split
      · simpa [new] using ‹parent = none›
      · simpa [absent] using ‹¬ parent = none›
    · rw [if_neg new, Option.map_eq_some_iff, ← forest.mem_roots_iff]
      split
      · simp [new]
      · exact Iff.rfl
  mem_children_iff := by
    intro id owner above found
    rw [← Option.map_eq_some_iff, parent_append appended]
    rw [slots_append appended] at found
    split at found
    · -- the new node has no children, and no slot records it as a parent
      rename_i new
      cases found
      rw [new]
      have other : parent ≠ some fragment.size := by
        rintro rfl
        rcases append_cases appended with ⟨⟨⟩, _⟩ | ⟨_, present, ⟨⟩, _⟩
        exact Nat.lt_irrefl _ present
      split
      · simpa using other
      · simpa using forest.not_recorded id
    · obtain ⟨before, old, rfl⟩ := Option.map_eq_some_iff.mp found
      have kept := forest.mem_children_iff id owner before old
      by_cases new : id = fragment.size
      · have absent : id ∉ before.children := fun member =>
          Nat.lt_irrefl _ (new ▸ bounded.children owner before old id member)
        rw [if_pos new, Option.some.injEq]
        split
        · simpa [new] using ‹parent = some owner›
        · simpa [absent] using ‹¬ parent = some owner›
      · rw [if_neg new, Option.map_eq_some_iff, ← kept]
        split
        · simp [new]
        · exact Iff.rfl
  parents := by
    intro id owner slot found recorded
    have known := congrArg (Option.map Slot.parent) found
    rw [parent_append appended, Option.map_some, recorded] at known
    split at known
    · rename_i new
      rw [Option.some.injEq] at known
      rcases append_cases appended with ⟨rfl, _⟩ | ⟨_, present, rfl, element, _⟩
      · cases known
      · cases known
        exact ⟨new ▸ present, isElement_append appended (Array.getElem?_eq_getElem present) element⟩
    · obtain ⟨before, old, same⟩ := Option.map_eq_some_iff.mp known
      obtain ⟨below, above, owned, element⟩ := forest.parents id owner before old same
      exact ⟨below, isElement_append appended owned element⟩

end Append

variable {fragment : Fragment}

/-- **The slots of a grown fragment are a forest.** -/
theorem Grown.forest (grown : fragment.Grown) : fragment.Forest := by
  induction grown with
  | empty => exact forest_empty
  | append before appended ih => exact ih.append before.bounded appended

/-- All ids that a fragment writes down: its roots and the children of its nodes. -/
def mentions (fragment : Fragment) : List NodeId :=
  fragment.roots ++ fragment.slots.toList.flatMap Slot.children

theorem exists_slot_of_mem {slot : Slot} (member : slot ∈ fragment.slots.toList) :
    ∃ id : NodeId, fragment.slots[id]? = some slot := by
  obtain ⟨id, found⟩ := List.mem_iff_getElem?.mp member
  exact ⟨id, by rw [← found, Array.getElem?_toList]⟩

namespace Forest

/-- An id is written down if it has a slot. -/
theorem mem_mentions_iff (forest : fragment.Forest) (id : NodeId) :
    id ∈ fragment.mentions ↔ id < fragment.size := by
  have slotted : ∀ {slot : Slot}, fragment.slots[id]? = some slot → id < fragment.size :=
    fun found => (Array.getElem?_eq_some_iff.mp found).1
  rw [mentions, List.mem_append, List.mem_flatMap]
  constructor
  · rintro (root | ⟨above, member, child⟩)
    · obtain ⟨slot, found, _⟩ := (forest.mem_roots_iff id).mp root
      exact slotted found
    · obtain ⟨owner, owned⟩ := exists_slot_of_mem member
      obtain ⟨slot, found, _⟩ := (forest.mem_children_iff id owner above owned).mp child
      exact slotted found
  · intro present
    have found : fragment.slots[id]? = some fragment.slots[id] := Array.getElem?_eq_getElem present
    cases recorded : fragment.slots[id].parent with
    | none => exact Or.inl ((forest.mem_roots_iff id).mpr ⟨_, found, recorded⟩)
    | some owner =>
      obtain ⟨_, above, owned, _⟩ := forest.parents id owner _ found recorded
      refine Or.inr ⟨above, ?_, ?_⟩
      · rw [Array.mem_toList_iff]
        exact Array.mem_of_getElem? owned
      · exact (forest.mem_children_iff id owner above owned).mpr ⟨_, found, recorded⟩

/-- No id is written down twice: each has one parent at most. -/
theorem nodup_mentions (forest : fragment.Forest) : fragment.mentions.Nodup := by
  have nodup : ∀ {ids : List NodeId}, ids.Pairwise (· < ·) → ids.Nodup :=
    fun increasing => increasing.imp Nat.ne_of_lt
  rw [mentions, List.nodup_append', List.nodup_flatMap, List.pairwise_iff_getElem]
  refine ⟨nodup forest.roots_increasing, ⟨fun slot member => ?_, ?_⟩, ?_⟩
  · obtain ⟨id, found⟩ := exists_slot_of_mem member
    exact nodup (forest.children_increasing id slot found)
  · intro first second here there before id own other
    have owned : ∀ {owner : NodeId} (inside : owner < fragment.slots.toList.length),
        fragment.slots[owner]? = some fragment.slots.toList[owner] := by
      intro owner inside
      rw [← Array.getElem?_toList, List.getElem?_eq_getElem inside]
    obtain ⟨slot, found, recorded⟩ := (forest.mem_children_iff id first _ (owned here)).mp own
    obtain ⟨same, again, twice⟩ := (forest.mem_children_iff id second _ (owned there)).mp other
    rw [found, Option.some.injEq] at again
    rw [← again, recorded, Option.some.injEq] at twice
    exact Nat.ne_of_lt before twice
  · intro id root child
    obtain ⟨above, member, below⟩ := List.mem_flatMap.mp child
    obtain ⟨owner, owned⟩ := exists_slot_of_mem member
    obtain ⟨slot, found, recorded⟩ := (forest.mem_roots_iff id).mp root
    obtain ⟨same, again, other⟩ := (forest.mem_children_iff id owner above owned).mp below
    rw [found, Option.some.injEq] at again
    rw [← again, recorded] at other
    cases other

/-- **Every id stands in one place**, among the roots or the children of one node. -/
theorem mentions_perm (forest : fragment.Forest) :
    fragment.mentions.Perm (List.range fragment.size) := by
  refine (List.perm_ext_iff_of_nodup forest.nodup_mentions List.nodup_range).mpr fun id => ?_
  rw [forest.mem_mentions_iff, List.mem_range]

end Forest

end Fragment

/-! ### Document order -/

/-- **A leaf placed in the innermost element of a path is the last in document order.** -/
theorem idsAll_place {nodes : List Tree} {path : List (NodeId × String)}
    (spine : Spine nodes path) (distinct : Distinct nodes) (new : Tree) (leaf : new.children = []) :
    idsAll (place new nodes (innermost path)) = idsAll nodes ++ [new.id] := by
  have alone : idsAll [new] = [new.id] := by
    rw [idsAll_cons, leaf, idsAll_nil]
    rfl
  induction path generalizing nodes with
  | nil =>
    show idsAll (nodes ++ [new]) = _
    rw [idsAll_append, alone]
  | cons outer inner ih =>
    obtain ⟨own, tag⟩ := outer
    obtain ⟨front, attributes, children, rfl, below⟩ := spine
    have placed := ih below distinct.append.2.1.cons.2.2.1
    rw [place_concat distinct below, idsAll_append, idsAll_append, idsAll_cons, idsAll_cons]
    simp only [Tree.children, placed, idsAll_nil, List.append_nil, List.append_assoc,
      List.cons_append]
    rfl

namespace Event

/-- The number of nodes that events add. -/
def nodeCount (events : List Event) : Nat :=
  (events.filterMap content?).length

theorem nodeCount_cons (event : Event) (rest : List Event) :
    nodeCount (event :: rest) = event.content?.toList.length + nodeCount rest := by
  unfold nodeCount
  cases added : event.content? with
  | none => rw [List.filterMap_cons_none added, Option.toList_none, List.length_nil, Nat.zero_add]
  | some content =>
    rw [List.filterMap_cons_some added, Option.toList_some, List.length_cons, List.length_singleton,
      Nat.add_comm]

theorem nodeCount_append (first second : List Event) :
    nodeCount (first ++ second) = nodeCount first + nodeCount second := by
  rw [nodeCount, List.filterMap_append, List.length_append]
  rfl

end Event

namespace Builder

/-- **Document order counts the nodes of a builder.** -/
structure Numbered (builder : Builder) : Prop where
  sound : builder.Sound
  ordered : idsAll builder.fragment.rootTrees = List.range builder.fragment.size

/-- An event adds a node at the end of document order, or none. -/
theorem Numbered.idsAll_treesAfter {builder : Builder} (numbered : builder.Numbered)
    (event : Event) :
    idsAll (builder.treesAfter event) =
      List.range (builder.fragment.size + event.content?.toList.length) := by
  unfold treesAfter
  cases event.content? with
  | none => exact numbered.ordered
  | some content =>
    have placed := idsAll_place numbered.sound.spine numbered.sound.grown.distinct
      (builder.fragment.leaf content) rfl
    rw [numbered.ordered] at placed
    exact placed.trans List.range_succ.symm

/-- **An event keeps the numbering**, unless it adds a node and the ids run out. -/
theorem Numbered.add_cases {builder : Builder} (numbered : builder.Numbered) (event : Event) :
    (Fragment.capacity < builder.fragment.size + event.content?.toList.length ∧
        builder.add event = .error .tooManyNodes) ∨
      ∃ next, builder.add event = .ok next ∧ next.Numbered ∧
        next.fragment.size = builder.fragment.size + event.content?.toList.length := by
  rcases numbered.sound.add_cases event with ⟨full, failed⟩ | ⟨next, added, sound, _, _, trees⟩
  · refine Or.inl ⟨?_, failed⟩
    cases event with
    | closing tag => cases failed
    | _ => exact Nat.lt_succ_of_le full
  · have ids := numbered.idsAll_treesAfter event
    rw [← trees] at ids
    have size := sound.grown.idsAll_perm.length_eq
    rw [ids, List.length_range, List.length_range] at size
    exact Or.inr ⟨next, added, ⟨sound, size ▸ ids⟩, size.symm⟩

/-- **Events keep the numbering**, unless they add more nodes than there are ids for. -/
theorem Numbered.foldlM_cases (events : List Event) {builder : Builder}
    (numbered : builder.Numbered) :
    (Fragment.capacity < builder.fragment.size + Event.nodeCount events ∧
        events.foldlM add builder = .error .tooManyNodes) ∨
      ∃ final, events.foldlM add builder = .ok final ∧ final.Numbered ∧
        final.fragment.size = builder.fragment.size + Event.nodeCount events := by
  induction events generalizing builder with
  | nil => exact Or.inr ⟨builder, rfl, numbered, rfl⟩
  | cons event rest ih =>
    rw [List.foldlM_cons, Event.nodeCount_cons]
    rcases numbered.add_cases event with ⟨full, failed⟩ | ⟨next, added, kept, size⟩
    · rw [failed]
      exact Or.inl ⟨by omega, rfl⟩
    · rw [added]
      rcases ih kept with ⟨full, failed⟩ | ⟨final, built, last, total⟩
      · exact Or.inl ⟨by omega, failed⟩
      · exact Or.inr ⟨final, built, last, by omega⟩

end Builder

/-- The number of nodes that markup stands for. -/
def nodeCount (markup : String) : Nat :=
  Event.nodeCount (events markup).1

/-- Reading itself ends at constructs only. -/
theorem exists_of_scan_error {finish : Nat} {pending text : List Char} {error : MarkupError}
    (failed : (scan finish pending text).2 = some error) :
    ∃ (cause : Unterminated) (position : Nat), error = cause.at position := by
  induction length : text.length using Nat.strongRecOn generalizing pending text
  rename_i bound ih
  cases text with
  | nil =>
    rw [scan_nil] at failed
    cases failed
  | cons c rest =>
    rw [List.length_cons] at length
    rw [scan] at failed
    split at failed
    · split at failed
      · exact ih rest.length (by omega) failed rfl
      · cases failed
        exact ⟨_, _, rfl⟩
      · rename_i event after construct
        have shorter := readConstruct_length construct
        exact ih after.length (by omega) failed rfl
    · exact ih rest.length (by omega) failed rfl

/-- **Markup is read in document order**, unless a construct in it does not end or it stands for
more nodes than there are ids for. -/
theorem parse_cases (markup : String) :
    (Fragment.capacity < nodeCount markup ∧ parse markup = .error (.tree .tooManyNodes)) ∨
      (∃ error, (events markup).2 = some error ∧ parse markup = .error error) ∨
      (events markup).2 = none ∧ ∃ fragment, parse markup = .ok fragment ∧
        fragment.size = nodeCount markup ∧ idsAll fragment.rootTrees = List.range fragment.size := by
  have start : Builder.empty.Numbered := ⟨⟨.empty, trivial⟩, rfl⟩
  have size : Builder.empty.fragment.size = 0 := rfl
  unfold parse nodeCount
  rcases start.foldlM_cases (events markup).1 with ⟨full, failed⟩ | ⟨final, built, last, total⟩
  · rw [size, Nat.zero_add] at full
    simp only [failed]
    exact Or.inl ⟨full, trivial⟩
  · rw [size, Nat.zero_add] at total
    simp only [built]
    cases ended : (events markup).2 with
    | none => exact Or.inr (Or.inr ⟨rfl, _, rfl, total, last.ordered⟩)
    | some error => exact Or.inr (Or.inl ⟨error, rfl, rfl⟩)

/-! ### Nodes -/

namespace Content

/-- The names in a tag: its own and those of its attributes. -/
def names : Content → List String
  | .element tag attributes | .raw tag attributes _ => tag :: attributes.map Prod.fst
  | _ => []

end Content

/-- **What holds of every node of markup that has been read.** -/
structure Slot.Regular (slot : Slot) : Prop where
  void_childless : ∀ tag attributes, slot.content = .element tag attributes → isVoid tag = true →
    slot.children = []
  distinct : (slot.content.attributes.map Prod.fst).Nodup
  lower : ∀ name ∈ slot.content.names, ∀ c ∈ name.toList, c.isUpper = false
  nonempty : slot.content ≠ .text ""

/-- A text in lower case has no upper case letter. -/
theorem isUpper_of_lower {text : List Char} (lower : asciiLower text = text) :
    ∀ c ∈ text, c.isUpper = false := by
  intro c member
  have same : c.toLower = c := by
    rw [asciiLower, ← List.map_id text, List.map_map] at lower
    exact List.map_inj_left.mp lower c member
  by_contra upper
  rw [Bool.not_eq_false] at upper
  have alpha : (c.isUpper || c.isLower) = true := by
    rw [upper, Bool.true_or]
  have letters : ∀ {c : Char}, c.isAlpha = true → c.isUpper = true → c.toLower ≠ c :=
    forall_isAlpha (motive := fun c => c.isUpper = true → c.toLower ≠ c) (by decide)
  exact letters alpha upper same

theorem Content.Tidy.isUpper_names {content : Content} (tidy : content.Tidy) :
    ∀ name ∈ content.names, ∀ c ∈ name.toList, c.isUpper = false := by
  have attributes : ∀ name ∈ content.attributes.map Prod.fst,
      ∀ c ∈ name.toList, c.isUpper = false := by
    intro name member
    obtain ⟨entry, inside, rfl⟩ := List.mem_map.mp member
    exact isUpper_of_lower (tidy.lower entry inside)
  have readable := tidy.readable
  cases content with
  | element tag entries =>
    exact List.forall_mem_cons.mpr ⟨isUpper_of_lower readable.1.lower, attributes⟩
  | raw tag entries inner =>
    exact List.forall_mem_cons.mpr ⟨isUpper_of_lower readable.1.lower, attributes⟩
  | text _ => exact fun _ member => absurd member List.not_mem_nil
  | comment _ => exact fun _ member => absurd member List.not_mem_nil
  | declaration _ => exact fun _ member => absurd member List.not_mem_nil

/-- **The nodes of markup that has been read are regular.** -/
theorem regular_of_parse {markup : String} {fragment : Fragment}
    (parsed : parse markup = .ok fragment) (id : NodeId) (slot : Slot)
    (found : fragment.slots[id]? = some slot) : slot.Regular := by
  have grown := grown_of_parse parsed
  have present : id < fragment.size := (Array.getElem?_eq_some_iff.mp found).1
  have member : id ∈ idsAll fragment.rootTrees :=
    grown.idsAll_perm.mem_iff.mpr (List.mem_range.mpr present)
  obtain ⟨tree, inside, rfl⟩ := List.mem_map.mp member
  obtain ⟨same, again, content, children⟩ := Fragment.slot_of_mem_subtreesAll inside
  rw [found, Option.some.injEq] at again
  subst again
  obtain ⟨tidy, opens⟩ := tidy_of_parse parsed tree inside
  rw [content] at tidy opens
  refine ⟨fun tag attributes element void => ?_, tidy.distinct, tidy.isUpper_names, tidy.nonempty⟩
  by_contra nonempty
  obtain ⟨first, rest, split⟩ := List.exists_cons_of_ne_nil nonempty
  have below : first < fragment.size :=
    grown.bounded.children tree.id slot found first (split ▸ List.mem_cons_self)
  obtain ⟨node, trees, _⟩ := Fragment.exists_trees_cons below rest
  rw [split, trees] at children
  obtain ⟨_, _, again, ordinary, _⟩ := opens (children ▸ List.cons_ne_nil _ _)
  rw [element] at again
  cases again
  rw [void] at ordinary
  cases ordinary

/-! ### All fragments -/

/-- **Fragments are forests.** After any calls, successful or not, every id stands in one place,
among the roots or the children of the parent that its slot records, and a call that fails changes
nothing. The nodes of markup that is accepted are numbered in document order, void elements have no
children, no element has two attributes of a name, names have no upper case letters and texts are
not empty. Building the tree fails only for markup with more nodes than there are ids. -/
theorem forest_of_appends :
    (∀ calls, (Fragment.attemptAll calls).Forest ∧
      (Fragment.attemptAll calls).mentions.Perm (List.range (Fragment.attemptAll calls).size) ∧
      ∀ parent content cause after, (Fragment.appendInPlace parent content).run
        (Fragment.attemptAll calls) = .error cause after → after = Fragment.attemptAll calls) ∧
    (∀ markup fragment, parse markup = .ok fragment →
      fragment.Forest ∧ idsAll fragment.rootTrees = List.range fragment.size ∧
      ∀ (id : NodeId) (slot : Slot), fragment.slots[id]? = some slot → slot.Regular) ∧
    ∀ markup, nodeCount markup ≤ Fragment.capacity → ∀ cause, parse markup ≠ .error (.tree cause) := by
  refine ⟨fun calls => ?_, fun markup fragment parsed => ?_, fun markup few cause failed => ?_⟩
  · have forest := (Fragment.grown_attemptAll calls).forest
    refine ⟨forest, forest.mentions_perm, fun parent content cause after failed => ?_⟩
    rw [Fragment.run_appendInPlace] at failed
    split at failed
    · cases failed
    · cases failed
      rfl
  · refine ⟨(grown_of_parse parsed).forest, ?_, regular_of_parse parsed⟩
    rcases parse_cases markup with ⟨_, failed⟩ | ⟨_, _, failed⟩ | ⟨_, again, read, _, ordered⟩
    · rw [parsed] at failed
      cases failed
    · rw [parsed] at failed
      cases failed
    · rw [parsed] at read
      cases read
      exact ordered
  · rcases parse_cases markup with ⟨many, _⟩ | ⟨error, ended, other⟩ | ⟨_, _, read, _⟩
    · exact Nat.not_lt_of_le few many
    · obtain ⟨construct, position, same⟩ := exists_of_scan_error ended
      rw [failed, same] at other
      cases construct <;> cases other
    · rw [failed] at read
      cases read

/-- A text and a comment are appended between calls that name a text and no node as parents. -/
def mixedCalls : List (Option NodeId × Content) :=
  [(none, .element "div" []), (some 0, .text "hi"), (some 1, .text "no"), (some 9, .text "no"),
    (none, .comment " x ")]

/-- Calls that fail leave no trace among others; an end tag without a start tag, a void element and
a repeated attribute stay out of the order of a page. -/
theorem forest_of_appends_mixed :
    ((Fragment.attemptAll mixedCalls).mentions = [0, 2, 1] ∧
      (Fragment.attemptAll mixedCalls).mentions.Perm [0, 1, 2] ∧
      ∃ after, (Fragment.appendInPlace (some 1) (.text "no")).run (Fragment.attemptAll mixedCalls) =
        .error (.parentNotElement 1) after ∧ after = Fragment.attemptAll mixedCalls) ∧
    (∃ fragment, parse "</b><P a=1 A=2>x<br>y</i></p><b/>z" = .ok fragment ∧
      idsAll fragment.rootTrees = [0, 1, 2, 3, 4, 5] ∧
      ∃ slot, fragment.slots[2]? = some slot ∧ slot.children = []) ∧
    ∀ cause, parse "<!-- x -->" ≠ .error (.tree cause) := by
  obtain ⟨appends, reads, counts⟩ := forest_of_appends
  refine ⟨?_, ?_, counts "<!-- x -->" (by decide +kernel)⟩
  · obtain ⟨_, perm, unchanged⟩ := appends mixedCalls
    have size : (Fragment.attemptAll mixedCalls).size = 3 := by decide +kernel
    have failed : ∃ after, (Fragment.appendInPlace (some 1) (.text "no")).run
        (Fragment.attemptAll mixedCalls) = .error (.parentNotElement 1) after := by
      rw [Fragment.run_appendInPlace]
      exact ⟨_, rfl⟩
    obtain ⟨after, failed⟩ := failed
    rw [size] at perm
    exact ⟨by decide +kernel, perm, after, failed, unchanged _ _ _ _ failed⟩
  · have passes : ((parse "</b><P a=1 A=2>x<br>y</i></p><b/>z").toOption.any
        fun fragment : Fragment => decide (fragment.size = 6 ∧
          (fragment.slots[2]?).map Slot.content = some (.element "br" []))) = true := by
      decide +kernel
    obtain ⟨fragment, parsed, tested⟩ := exists_of_parse_any passes
    obtain ⟨size, line⟩ := of_decide_eq_true tested
    obtain ⟨slot, found, content⟩ := Option.map_eq_some_iff.mp line
    obtain ⟨_, ordered, regular⟩ := reads _ fragment parsed
    rw [size] at ordered
    exact ⟨fragment, parsed, ordered, slot, found,
      (regular 2 slot found).void_childless "br" [] content (by decide)⟩

end DataBind.Markup
