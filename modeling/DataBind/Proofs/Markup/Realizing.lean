/-
**Every forest is the tree of a fragment.**

Nodes can be appended in document order, each to the innermost element that is still open. So a
forest in which only elements have children is what some fragment holds, but for the ids, as long as
there are ids for its nodes.

* `Builder.Shows.append_cases`, `Builder.Shows.closed`: a node is appended, and opened if it is an
  element; the innermost open element is closed;
* `Builder.Shows.exists_forest`: a forest is appended to the innermost open element;
* `exists_fragment_of_leafy`: so it is what some fragment holds.
-/

import DataBind.Proofs.Markup.Settled

namespace DataBind.Markup

open DataBind.Markup.Tree

namespace Builder

variable {builder : Builder} {layers : List Layer} {inner : List Tree} {content : Content}

/-- What is shown after a node has been appended; an element can be opened then. -/
theorem Shows.append_cases (shows : builder.Shows layers inner) (content : Content)
    (room : builder.fragment.size < Fragment.capacity) :
    ∃ fragment : Fragment, fragment.size = builder.fragment.size + 1 ∧
      (⟨fragment, builder.unclosed⟩ : Builder).Shows layers (inner ++ [.node 0 content []]) ∧
      ∀ tag attributes, content = .element tag attributes →
        (⟨fragment, (builder.fragment.size, tag) :: builder.unclosed⟩ : Builder).Shows
          (layers ++ [⟨inner, tag, attributes⟩]) [] := by
  obtain ⟨full, _⟩ | ⟨fragment, _, grown, size, trees⟩ := shows.sound.append_cases content
  · exact absurd full (Nat.not_le_of_lt room)
  have depth : builder.unclosed.reverse.length = layers.length := by
    simpa using congrArg List.length shows.unclosed
  have shape : shapeAll fragment.rootTrees = plug layers (inner ++ [.node 0 content []]) := by
    rw [trees]
    exact shapeAll_place shows.sound.spine shows.sound.grown.distinct shows.trees depth _
  obtain ⟨kept, extended⟩ := shows.sound.spine.place shows.sound.grown.distinct
    (builder.fragment.leaf content)
  rw [← trees] at kept extended
  refine ⟨fragment, size, ⟨⟨grown, kept⟩, shape, shows.unclosed⟩, fun tag attributes same => ?_⟩
  subst same
  refine ⟨⟨grown, ?_⟩, ?_, ?_⟩
  · rw [List.reverse_cons]
    exact extended _ _ _ rfl
  · rw [shape, plug_append]
    rfl
  · rw [List.reverse_cons, List.map_append, List.map_append, shows.unclosed]
    rfl

/-- Without its innermost open element a builder shows this element among its siblings. -/
theorem Shows.closed {fragment : Fragment} {own : NodeId × String} {outer : List (NodeId × String)}
    {before : List Tree} {tag : String} {attributes : List Attribute}
    (shows : (⟨fragment, own :: outer⟩ : Builder).Shows
      (layers ++ [⟨before, tag, attributes⟩]) inner) :
    (⟨fragment, outer⟩ : Builder).Shows layers
      (before ++ [.node 0 (.element tag attributes) inner]) := by
  obtain ⟨⟨grown, spine⟩, trees, unclosed⟩ := shows
  rw [List.reverse_cons] at spine
  rw [plug_append] at trees
  rw [List.reverse_cons, List.map_append, List.map_append] at unclosed
  exact ⟨⟨grown, spine.of_append⟩, trees, (List.append_inj' unclosed rfl).1⟩

/-- **A forest can be appended to the innermost open element**, node by node in document order. -/
theorem Shows.exists_forest {nodes : List Tree} (leafy : Leafy nodes)
    (shows : builder.Shows layers inner)
    (room : builder.fragment.size + (subtreesAll nodes).length ≤ Fragment.capacity) :
    ∃ fragment : Fragment,
      fragment.size = builder.fragment.size + (subtreesAll nodes).length ∧
      (⟨fragment, builder.unclosed⟩ : Builder).Shows layers (inner ++ shapeAll nodes) := by
  induction nodes using forestInduction generalizing builder layers inner with
  | nil =>
    refine ⟨builder.fragment, by simp, ?_⟩
    rw [shapeAll, List.append_nil]
    exact shows
  | cons id content children rest below later =>
    rw [subtreesAll_cons, List.length_cons, List.length_append] at room ⊢
    simp only [Tree.children] at room ⊢
    obtain ⟨leafyBelow, leafyLater⟩ := leafy.cons
    obtain ⟨first, size, leaf, opened⟩ := shows.append_cases content (by omega)
    -- the node is there with all below it, and its children have got their ids
    obtain ⟨middle, size, whole⟩ : ∃ middle : Fragment,
        middle.size = builder.fragment.size + 1 + (subtreesAll children).length ∧
        (⟨middle, builder.unclosed⟩ : Builder).Shows layers
          (inner ++ [.node 0 content (shapeAll children)]) := by
      cases content with
      | element tag attributes =>
        obtain ⟨middle, size, filled⟩ := below leafyBelow (opened tag attributes rfl)
          (by simp only; omega)
        exact ⟨middle, by simp only at size; omega, filled.closed⟩
      | _ =>
        have childless : children = [] := leafy.head rfl
        subst childless
        exact ⟨first, by simpa using size, leaf⟩
    obtain ⟨last, size, final⟩ := later leafyLater whole (by simp only; omega)
    refine ⟨last, by simp only at size; omega, ?_⟩
    rw [shapeAll, shape, ← List.singleton_append, ← List.append_assoc]
    exact final

end Builder

/-- **Every forest in which only elements have children is what some fragment holds**, but for its
ids, as long as there are ids for its nodes. -/
theorem exists_fragment_of_leafy {nodes : List Tree} (leafy : Leafy nodes)
    (room : (subtreesAll nodes).length ≤ Fragment.capacity) :
    ∃ fragment : Fragment, fragment.Grown ∧ shapeAll fragment.rootTrees = shapeAll nodes := by
  have start : Builder.empty.Shows [] [] := ⟨⟨.empty, trivial⟩, rfl, rfl⟩
  have size : Builder.empty.fragment.size = 0 := rfl
  obtain ⟨fragment, _, shows⟩ := start.exists_forest leafy (by omega)
  exact ⟨fragment, shows.sound.grown, shows.trees⟩

end DataBind.Markup
