/-
**How marks are built into a tree.**

The open elements of a builder are the last nodes of their sibling lists, one inside the other. So
what is built depends on the marks only, once text, attribute values and raw content are left out.

* `Spine`: the elements of a path, from a root down, each the last of its siblings;
* `Builder.Sound`: the open elements are a spine, which every event keeps;
* `Outline`, `outlineAll`: trees without ids, text, attribute values and raw content;
* `Sketch.add`: the outline that a mark makes of an outline with open elements;
* `parse_of_reads`: markup that leaves marks is read as the outline that they make, as long as its
  nodes can be numbered.
-/

import DataBind.Proofs.Markup.Growth
import DataBind.Proofs.Markup.Reading

namespace DataBind.Markup

open DataBind.Markup.Tree

/-! ### Open elements -/

/-- The elements of a path, outermost first, are each the last of its siblings. -/
def Spine : List Tree → List (NodeId × String) → Prop
  | _, [] => True
  | nodes, (own, tag) :: inner => ∃ front attributes children,
    nodes = front ++ [.node own (.element tag attributes) children] ∧ Spine children inner

/-- The id of the innermost element of a path. -/
def innermost (path : List (NodeId × String)) : Option NodeId :=
  path.getLast?.map Prod.fst

theorem innermost_cons (outer : NodeId × String) (inner : List (NodeId × String)) :
    innermost (outer :: inner) = some ((innermost inner).getD outer.1) := by
  cases inner with
  | nil => rfl
  | cons next rest => simp [innermost, List.getLast?_cons]

/-- The elements of a path are inside the forest. -/
theorem Spine.mem {nodes : List Tree} {path : List (NodeId × String)} (spine : Spine nodes path)
    {id : NodeId} (last : innermost path = some id) :
    ∃ tree ∈ subtreesAll nodes, tree.id = id ∧ tree.content.isElement = true := by
  induction path generalizing nodes with
  | nil => cases last
  | cons outer inner ih =>
    obtain ⟨own, tag⟩ := outer
    obtain ⟨front, attributes, children, rfl, below⟩ := spine
    have here : .node own (.element tag attributes) children ∈
        subtreesAll (front ++ [.node own (.element tag attributes) children]) :=
      mem_subtreesAll_of_mem (List.mem_append_right _ (List.mem_singleton_self _))
    rw [innermost_cons] at last
    cases next : innermost inner with
    | none =>
      rw [next] at last
      cases last
      exact ⟨_, here, rfl, rfl⟩
    | some deeper =>
      rw [next] at last
      cases last
      obtain ⟨tree, inside, same, element⟩ := ih below next
      exact ⟨tree, mem_subtreesAll_of_children here inside, same, element⟩

theorem Spine.of_append {nodes : List Tree} {outer inner : List (NodeId × String)}
    (spine : Spine nodes (outer ++ inner)) : Spine nodes outer := by
  induction outer generalizing nodes with
  | nil => trivial
  | cons first rest ih =>
    obtain ⟨front, attributes, children, same, below⟩ := spine
    exact ⟨front, attributes, children, same, ih below⟩

/-- **A node placed in the innermost element is placed below the last root.** -/
theorem place_concat {front children : List Tree} {own : NodeId} {content : Content}
    (distinct : Distinct (front ++ [.node own content children]))
    {inner : List (NodeId × String)} (below : Spine children inner) (tag : String) (new : Tree) :
    place new (front ++ [.node own content children]) (innermost ((own, tag) :: inner)) =
      front ++ [.node own content (place new children (innermost inner))] := by
  obtain ⟨_, alone, apart⟩ := distinct.append
  have notBelow : own ∉ idsAll children := alone.cons.1
  rw [innermost_cons, place, graftAll_eq_map, List.map_append, ← graftAll_eq_map,
    List.map_singleton, graft]
  cases next : innermost inner with
  | none =>
    have elsewhere : own ∉ idsAll front := fun early => apart early (by
      rw [idsAll_cons]
      exact List.mem_cons_self)
    rw [Option.getD_none, graftAll_of_not_mem elsewhere, if_pos rfl, graftAll_of_not_mem notBelow]
    rfl
  | some deeper =>
    obtain ⟨tree, inside, same, _⟩ := below.mem next
    have member : deeper ∈ idsAll children := same ▸ id_mem_idsAll inside
    have other : ¬ own = deeper := fun equal => notBelow (equal ▸ member)
    have elsewhere : deeper ∉ idsAll front := fun early => apart early (by
      rw [idsAll_cons]
      exact List.mem_cons_of_mem _ (List.mem_append_left _ member))
    rw [Option.getD_some, graftAll_of_not_mem elsewhere, if_neg other]
    rfl

/-- Placing a node in the innermost element keeps the path; an element can extend it. -/
theorem Spine.place {nodes : List Tree} {path : List (NodeId × String)} (spine : Spine nodes path)
    (distinct : Distinct nodes) (new : Tree) :
    Spine (Tree.place new nodes (innermost path)) path ∧
      ∀ id tag attributes, new = .node id (.element tag attributes) [] →
        Spine (Tree.place new nodes (innermost path)) (path ++ [(id, tag)]) := by
  induction path generalizing nodes with
  | nil =>
    refine ⟨trivial, fun id tag attributes same => ?_⟩
    exact ⟨nodes, attributes, [], same ▸ rfl, trivial⟩
  | cons outer inner ih =>
    obtain ⟨own, tag⟩ := outer
    obtain ⟨front, attributes, children, rfl, below⟩ := spine
    have alone : Distinct children := distinct.append.2.1.cons.2.2.1
    rw [place_concat distinct below]
    obtain ⟨kept, extended⟩ := ih below alone
    refine ⟨⟨front, attributes, _, rfl, kept⟩, fun id other entries same => ?_⟩
    exact ⟨front, attributes, _, rfl, extended id other entries same⟩

/-! ### Builders -/

/-- The node that an event adds; end tags add none. -/
def Event.content? : Event → Option Content
  | .text inner => some (.text inner)
  | .comment inner => some (.comment inner)
  | .declaration inner => some (.declaration inner)
  | .raw tag attributes inner => some (.raw tag attributes inner)
  | .opening tag attributes _ => some (.element tag attributes)
  | .closing _ => none

namespace Builder

/-- The open elements after an event, given the id of the node it adds. -/
def unclosedAfter (new : NodeId) (unclosed : List (NodeId × String)) :
    Event → List (NodeId × String)
  | .opening tag _ selfClosing =>
    if selfClosing || isVoid tag then unclosed else (new, tag) :: unclosed
  | .closing tag => close tag unclosed
  | _ => unclosed

/-- **The open elements of a builder are a spine of its trees.** -/
structure Sound (builder : Builder) : Prop where
  grown : builder.fragment.Grown
  spine : Spine builder.fragment.rootTrees builder.unclosed.reverse

/-- The trees after an event. -/
def treesAfter (builder : Builder) (event : Event) : List Tree :=
  match event.content? with
  | none => builder.fragment.rootTrees
  | some content =>
    place (builder.fragment.leaf content) builder.fragment.rootTrees
      (innermost builder.unclosed.reverse)

theorem innermost_reverse (unclosed : List (NodeId × String)) :
    innermost unclosed.reverse = unclosed.head?.map Prod.fst := by
  rw [innermost, List.getLast?_reverse]

/-- End tags close the innermost elements. -/
theorem close_suffix (tag : String) (unclosed : List (NodeId × String)) :
    close tag unclosed <:+ unclosed := by
  unfold close
  split
  · exact List.suffix_rfl
  · rename_i outer found
    exact ((List.suffix_cons _ outer).trans (found ▸ List.dropWhile_suffix _))

/-- **Appending fails only when the ids run out.** -/
theorem Sound.append_cases {builder : Builder} (sound : builder.Sound) (content : Content) :
    (Fragment.capacity ≤ builder.fragment.size ∧
        builder.append content = .error .tooManyNodes) ∨
      ∃ fragment, builder.append content = .ok ⟨fragment, builder.unclosed⟩ ∧ fragment.Grown ∧
        fragment.size = builder.fragment.size + 1 ∧
        fragment.rootTrees = place (builder.fragment.leaf content) builder.fragment.rootTrees
          (innermost builder.unclosed.reverse) := by
  obtain ⟨fragment, unclosed⟩ := builder
  obtain ⟨grown, spine⟩ := sound
  simp only at grown spine
  rw [Builder.append]
  rw [innermost_reverse]
  by_cases full : Fragment.capacity ≤ fragment.size
  · refine Or.inl ⟨full, ?_⟩
    unfold Fragment.append
    rw [if_pos full]
    rfl
  · right
    have succeeds : ∃ next, fragment.append (unclosed.head?.map Prod.fst) content = .ok next := by
      unfold Fragment.append
      rw [if_neg full]
      cases last : unclosed.head?.map Prod.fst with
      | none => exact ⟨_, rfl⟩
      | some parent =>
        rw [← innermost_reverse] at last
        obtain ⟨tree, inside, rfl, element⟩ := spine.mem last
        obtain ⟨slot, found, same, _⟩ := Fragment.slot_of_mem_subtreesAll inside
        have present : tree.id < fragment.size := Fragment.id_lt_size_of_mem inside
        have here : fragment.slots[Fin.mk tree.id present] = slot := by
          rw [Array.getElem?_eq_getElem present, Option.some.injEq] at found
          exact found
        simp only [dif_pos present, here, ← same, element, if_true]
        exact ⟨_, rfl⟩
    obtain ⟨next, appended⟩ := succeeds
    refine ⟨next, ?_, .append grown appended, Fragment.size_append appended, ?_⟩
    · rw [appended]
      rfl
    · exact Fragment.rootTrees_append grown.bounded appended

theorem except_map_id {ε α : Type} (result : Except ε α) :
    result.map (fun value => value) = result := by
  cases result <;> rfl

/-- An event adds its node and then opens or closes elements. -/
theorem add_eq (builder : Builder) (event : Event) :
    builder.add event =
      match event.content? with
      | none => .ok { builder with unclosed := unclosedAfter 0 builder.unclosed event }
      | some content => (builder.append content).map fun grown =>
        { grown with unclosed := unclosedAfter grown.fragment.newest grown.unclosed event } := by
  cases event with
  | closing tag => rfl
  | opening tag attributes selfClosing =>
    rw [add, Event.content?]
    refine congrArg (fun change => (builder.append _).map change) ?_
    funext grown
    rw [unclosedAfter]
    split <;> rfl
  | text inner => exact (except_map_id _).symm
  | comment inner => exact (except_map_id _).symm
  | declaration inner => exact (except_map_id _).symm
  | raw tag attributes inner => exact (except_map_id _).symm

/-- The open elements stay a spine. -/
theorem Sound.spine_unclosedAfter {builder : Builder} (sound : builder.Sound) (event : Event) :
    Spine (builder.treesAfter event)
      (unclosedAfter builder.fragment.size builder.unclosed event).reverse := by
  have placed := sound.spine.place sound.grown.distinct
  cases event with
  | closing tag =>
    obtain ⟨inner, same⟩ := close_suffix tag builder.unclosed
    have whole := sound.spine
    rw [← same, List.reverse_append] at whole
    exact whole.of_append
  | opening tag attributes selfClosing =>
    rw [unclosedAfter]
    split
    · exact (placed _).1
    · rw [List.reverse_cons]
      exact (placed _).2 _ _ _ rfl
  | text inner => exact (placed _).1
  | comment inner => exact (placed _).1
  | declaration inner => exact (placed _).1
  | raw tag attributes inner => exact (placed _).1

/-- **What an event does to a builder**, unless the ids run out. -/
theorem Sound.add_cases {builder : Builder} (sound : builder.Sound) (event : Event) :
    (Fragment.capacity ≤ builder.fragment.size ∧ builder.add event = .error .tooManyNodes) ∨
      ∃ next, builder.add event = .ok next ∧ next.Sound ∧
        next.fragment.size ≤ builder.fragment.size + 1 ∧
        next.unclosed = unclosedAfter builder.fragment.size builder.unclosed event ∧
        next.fragment.rootTrees = builder.treesAfter event := by
  have spine := sound.spine_unclosedAfter event
  unfold treesAfter at spine
  rw [add_eq]
  cases added : event.content? with
  | none =>
    rw [added] at spine
    have last : unclosedAfter 0 builder.unclosed event =
        unclosedAfter builder.fragment.size builder.unclosed event := by
      cases event <;> cases added
      rfl
    refine Or.inr ⟨_, rfl, ⟨sound.grown, ?_⟩, Nat.le_succ _, last, ?_⟩
    · rw [last]
      exact spine
    · rw [treesAfter, added]
  | some content =>
    rw [added] at spine
    simp only at spine ⊢
    rcases sound.append_cases content with
      ⟨full, failed⟩ | ⟨fragment, appended, grown, size, placed⟩
    · refine Or.inl ⟨full, ?_⟩
      rw [failed]
      rfl
    · have newest : fragment.newest = builder.fragment.size := by
        rw [Fragment.newest, size]
        rfl
      have next : (builder.append content).map (fun grown : Builder =>
          { grown with unclosed := unclosedAfter grown.fragment.newest grown.unclosed event }) =
            .ok ⟨fragment, unclosedAfter builder.fragment.size builder.unclosed event⟩ := by
        rw [appended, ← newest]
        rfl
      refine Or.inr ⟨_, next, ⟨grown, ?_⟩, Nat.le_of_eq size, rfl, ?_⟩
      · show Spine fragment.rootTrees _
        rw [placed]
        exact spine
      · rw [treesAfter, added]
        exact placed

end Builder

/-! ### Outlines -/

/-- A tree without ids, text, attribute values and raw content. -/
inductive Outline where
  | element (tag : String) (names : List String) (children : List Outline)
  | comment (text : String)
  | declaration (text : String)
  | raw (tag : String) (names : List String)

namespace Tree

mutual

/-- The outline of a tree; text has none. -/
def outline : Tree → List Outline
  | .node _ (.element tag attributes) children =>
    [.element tag (attributes.map Prod.fst) (outlineAll children)]
  | .node _ (.text _) _ => []
  | .node _ (.comment inner) _ => [.comment inner]
  | .node _ (.raw tag attributes _) _ => [.raw tag (attributes.map Prod.fst)]
  | .node _ (.declaration inner) _ => [.declaration inner]

/-- The outlines of a forest. -/
def outlineAll : List Tree → List Outline
  | [] => []
  | tree :: rest => outline tree ++ outlineAll rest

end

theorem outlineAll_append (first second : List Tree) :
    outlineAll (first ++ second) = outlineAll first ++ outlineAll second := by
  induction first with
  | nil => rw [List.nil_append, outlineAll, List.nil_append]
  | cons tree rest ih => rw [List.cons_append, outlineAll, outlineAll, ih, List.append_assoc]

theorem outlineAll_singleton (tree : Tree) : outlineAll [tree] = outline tree := by
  rw [outlineAll, outlineAll, List.append_nil]

end Tree

/-- The outlines with more of them behind what the last element at a depth has. -/
def hang (new : List Outline) : Nat → List Outline → List Outline
  | 0, outlines => outlines ++ new
  | depth + 1, outlines =>
    match outlines.getLast? with
    | some (.element tag names children) =>
      outlines.dropLast ++ [.element tag names (hang new depth children)]
    | _ => outlines

theorem hang_nil (depth : Nat) (outlines : List Outline) : hang [] depth outlines = outlines := by
  induction depth generalizing outlines with
  | zero => rw [hang, List.append_nil]
  | succ depth ih =>
    rw [hang]
    split
    · rename_i last
      rw [ih]
      exact List.dropLast_append_getLast? _ last
    · rfl

theorem hang_concat (new front children : List Outline) (depth : Nat) (tag : String)
    (names : List String) :
    hang new (depth + 1) (front ++ [.element tag names children]) =
      front ++ [.element tag names (hang new depth children)] := by
  rw [hang, List.getLast?_concat, List.dropLast_concat]

/-- **Placing a node in the innermost element hangs its outline there.** -/
theorem outlineAll_place {nodes : List Tree} {path : List (NodeId × String)}
    (spine : Spine nodes path) (distinct : Distinct nodes) (new : Tree) :
    outlineAll (place new nodes (innermost path)) =
      hang new.outline path.length (outlineAll nodes) := by
  induction path generalizing nodes with
  | nil =>
    show outlineAll (nodes ++ [new]) = _
    rw [outlineAll_append, outlineAll_singleton]
    rfl
  | cons outer inner ih =>
    obtain ⟨own, tag⟩ := outer
    obtain ⟨front, attributes, children, rfl, below⟩ := spine
    rw [place_concat distinct below, outlineAll_append, outlineAll_append, outlineAll_singleton,
      outlineAll_singleton, outline, outline, ih below distinct.append.2.1.cons.2.2.1]
    exact (hang_concat _ _ _ _ _ _).symm

/-! ### Sketches -/

/-- What a mark adds to an outline. -/
def Mark.outline : Mark → List Outline
  | .comment inner => [.comment inner]
  | .declaration inner => [.declaration inner]
  | .raw tag names => [.raw tag names]
  | .opening tag names _ => [.element tag names []]
  | .closing _ => []

/-- An outline under construction, with the names of its open elements, innermost first. -/
structure Sketch where
  outlines : List Outline
  unclosed : List String

namespace Sketch

/-- The start of a construction. -/
def empty : Sketch :=
  ⟨[], []⟩

/-- The names of the open elements after a mark. -/
def unclosedAfter (unclosed : List String) : Mark → List String
  | .opening tag _ selfClosing => if selfClosing || isVoid tag then unclosed else tag :: unclosed
  | .closing tag =>
    match unclosed.dropWhile fun name => name != tag with
    | [] => unclosed
    | _ :: outer => outer
  | _ => unclosed

/-- Takes in one mark. -/
def add (sketch : Sketch) (mark : Mark) : Sketch :=
  ⟨hang mark.outline sketch.unclosed.length sketch.outlines, unclosedAfter sketch.unclosed mark⟩

end Sketch

/-- The outline that marks make. -/
def outlineOf (marks : List Mark) : List Outline :=
  (marks.foldl Sketch.add .empty).outlines

/-- A sketch has the outline of a builder and the names of its open elements. -/
structure Builder.Follows (builder : Builder) (sketch : Sketch) : Prop where
  outlines : outlineAll builder.fragment.rootTrees = sketch.outlines
  unclosed : builder.unclosed.map Prod.snd = sketch.unclosed

namespace Builder

theorem map_close (tag : String) (unclosed : List (NodeId × String)) :
    (close tag unclosed).map Prod.snd =
      Sketch.unclosedAfter (unclosed.map Prod.snd) (.closing tag) := by
  rw [Sketch.unclosedAfter, List.dropWhile_map]
  unfold close
  split
  · rename_i found
    have same : unclosed.dropWhile ((fun name => name != tag) ∘ Prod.snd) = [] := found
    rw [same]
    rfl
  · rename_i first outer found
    have same : unclosed.dropWhile ((fun name => name != tag) ∘ Prod.snd) = first :: outer := found
    rw [same]
    rfl

/-- The outlines after an event are those after its mark. -/
theorem Follows.outlineAll_treesAfter {builder : Builder} {sketch : Sketch} (sound : builder.Sound)
    (follows : builder.Follows sketch) (event : Event) :
    outlineAll (builder.treesAfter event) =
      hang ((event.mark?.map Mark.outline).getD []) sketch.unclosed.length sketch.outlines := by
  have depth : builder.unclosed.reverse.length = sketch.unclosed.length := by
    rw [List.length_reverse, ← follows.unclosed, List.length_map]
  have placed := outlineAll_place sound.spine sound.grown.distinct
  rw [depth, follows.outlines] at placed
  cases event with
  | closing tag => exact follows.outlines.trans (hang_nil _ _).symm
  | text inner => exact placed _
  | comment inner => exact placed _
  | declaration inner => exact placed _
  | raw tag attributes inner => exact placed _
  | opening tag attributes selfClosing => exact placed (.node _ (.element tag attributes) [])

/-- **An event keeps a builder and a sketch together**: its mark does to the sketch what it does
to the builder. -/
theorem Follows.add {builder next : Builder} {sketch : Sketch} (sound : builder.Sound)
    (follows : builder.Follows sketch) {event : Event}
    (unclosed : next.unclosed = unclosedAfter builder.fragment.size builder.unclosed event)
    (trees : next.fragment.rootTrees = builder.treesAfter event) :
    next.Follows (event.mark?.toList.foldl Sketch.add sketch) := by
  have outlines := follows.outlineAll_treesAfter sound event
  rw [← trees] at outlines
  have names := follows.unclosed
  cases event with
  | text inner => exact ⟨outlines.trans (hang_nil _ _), unclosed ▸ names⟩
  | comment inner => exact ⟨outlines, unclosed ▸ names⟩
  | declaration inner => exact ⟨outlines, unclosed ▸ names⟩
  | raw tag attributes inner => exact ⟨outlines, unclosed ▸ names⟩
  | closing tag =>
    refine ⟨outlines, ?_⟩
    rw [unclosed]
    show (close tag builder.unclosed).map Prod.snd =
      Sketch.unclosedAfter sketch.unclosed (.closing tag)
    rw [map_close, names]
  | opening tag attributes selfClosing =>
    refine ⟨outlines, ?_⟩
    rw [unclosed]
    show (unclosedAfter _ _ (.opening tag attributes selfClosing)).map Prod.snd =
      Sketch.unclosedAfter sketch.unclosed (.opening tag (attributes.map Prod.fst) selfClosing)
    rw [unclosedAfter, Sketch.unclosedAfter]
    split
    · exact names
    · rw [List.map_cons, names]

/-- **Events build the outline of their marks**, unless the ids run out. -/
theorem Follows.foldlM_cases (events : List Event) {builder : Builder} {sketch : Sketch}
    (sound : builder.Sound) (follows : builder.Follows sketch) :
    (events.foldlM Builder.add builder = .error .tooManyNodes ∧
        Fragment.capacity < builder.fragment.size + events.length) ∨
      ∃ final, events.foldlM Builder.add builder = .ok final ∧
        final.Follows ((events.filterMap Event.mark?).foldl Sketch.add sketch) := by
  induction events generalizing builder sketch with
  | nil => exact Or.inr ⟨builder, rfl, follows⟩
  | cons event rest ih =>
    rw [List.foldlM_cons, List.length_cons]
    rcases sound.add_cases event with ⟨full, failed⟩ | ⟨next, added, kept, size, unclosed, trees⟩
    · left
      rw [failed]
      exact ⟨rfl, by omega⟩
    · rw [added]
      have marks : ((event :: rest).filterMap Event.mark?).foldl Sketch.add sketch =
          (rest.filterMap Event.mark?).foldl Sketch.add
            (event.mark?.toList.foldl Sketch.add sketch) := by
        rw [List.filterMap_cons]
        cases event.mark? <;> rfl
      rw [marks]
      rcases ih kept (follows.add sound unclosed trees) with ⟨failed, full⟩ | succeeded
      · exact Or.inl ⟨failed, by omega⟩
      · exact Or.inr succeeded

end Builder

/-! ### Reading -/

theorem pendingText_length (pending : List Char) :
    (pendingText pending).length ≤ pending.length := by
  unfold pendingText
  cases pending <;> simp

/-- There are no more events than characters. -/
theorem scan_length (finish : Nat) (pending text : List Char) :
    (scan finish pending text).1.length ≤ pending.length + text.length := by
  induction length : text.length using Nat.strongRecOn generalizing pending text
  rename_i bound ih
  cases text with
  | nil =>
    rw [scan_nil]
    exact Nat.le_add_right_of_le (pendingText_length pending)
  | cons c rest =>
    rw [List.length_cons] at length
    have plain := ih rest.length (by omega) (c :: pending) rest rfl
    rw [List.length_cons] at plain
    have start := pendingText_length pending
    rw [scan]
    split
    · split
      · omega
      · show (pendingText pending).length ≤ _
        omega
      · rename_i event after construct
        have shorter := readConstruct_length construct
        have later := ih after.length (by omega) [] after rfl
        rw [List.length_nil] at later
        simp only [List.length_append, List.length_cons]
        omega
    · omega

/-- **A text is accepted as markup.** Only a text with more characters than there are ids for nodes
can be refused, since the ids run out. -/
def Accepted (text : String) : Prop :=
  (∃ fragment, parse text = .ok fragment) ∨
    parse text = .error (.tree .tooManyNodes) ∧ Fragment.capacity < text.length

/-- **Markup that leaves marks is accepted, and its tree has the outline that the marks make.** -/
theorem parse_of_reads {text : String} {marks : List Mark} (reads : Reads text marks) :
    Accepted text ∧ ∀ fragment, parse text = .ok fragment →
      outlineAll fragment.rootTrees = outlineOf marks := by
  have found := reads.marked_events
  have count := scan_length (Text.byteLength text.toList) [] text.toList
  have sound : Builder.empty.Sound := ⟨.empty, trivial⟩
  have follows : Builder.empty.Follows Sketch.empty := ⟨rfl, rfl⟩
  unfold Accepted parse
  rw [events] at found ⊢
  cases scanned : scan (Text.byteLength text.toList) [] text.toList with
  | mk events error =>
    rw [scanned] at found count
    obtain ⟨rfl, rfl⟩ : events.filterMap Event.mark? = marks ∧ error = none := Prod.mk.inj found
    rcases follows.foldlM_cases events sound with ⟨failed, full⟩ | ⟨final, built, last⟩
    · simp only [failed]
      refine ⟨Or.inr ⟨trivial, ?_⟩, fun _ wrong => by cases wrong⟩
      have empty : Builder.empty.fragment.size = 0 := rfl
      rw [empty] at full
      rw [List.length_nil] at count
      rw [← String.length_toList]
      simp only at count
      omega
    · simp only [built]
      refine ⟨Or.inl ⟨final.fragment, rfl⟩, fun fragment same => ?_⟩
      rw [← Except.ok.inj same]
      exact last.outlines

end DataBind.Markup
