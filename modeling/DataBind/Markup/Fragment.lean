/-
**Fragments: ordered forests of nodes.**

A fragment grows by appending: a node becomes the last root or the last child of an element, and
its id is the number of nodes before it. So children always have greater ids than their parents,
which the type records, and a node and all below it can be read off as a tree.

* `size_append`: appending adds one node, whose id was the size before;
* `Tree.weight_eq`: a tree weighs as much as its children and two more.
-/

import DataBind.Markup.Escape
import DataBind.Markup.Tag
import DataBind.Text.Blank

namespace DataBind.Markup

/-- The creation index of a node in its fragment. -/
abbrev NodeId : Type := Nat

/-- A name and a value. -/
abbrev Attribute : Type := String × String

/-- What a node is, apart from its place in the tree. -/
inductive Content where
  | element (tag : String) (attributes : List Attribute)
  | text (text : String)
  /-- A comment, without its delimiters. -/
  | comment (text : String)
  /-- An element whose content is no markup. -/
  | raw (tag : String) (attributes : List Attribute) (content : String)
  /-- A markup declaration, without its angle brackets. -/
  | declaration (text : String)
  deriving DecidableEq, Repr

namespace Content

/-- Whether a node can have children. -/
def isElement : Content → Bool
  | .element .. => true
  | _ => false

/-- The text of a comment. -/
def comment? : Content → Option String
  | .comment inner => some inner
  | _ => none

/-- The value of an element's attribute. -/
def attribute? (name : String) : Content → Option String
  | .element _ attributes => attributes.lookup name
  | _ => none

end Content

/-- A node in its place: its parent, and the ids of its children in order. -/
structure Slot where
  content : Content
  parent : Option NodeId
  children : List NodeId

/-- An ordered forest of nodes. -/
structure Fragment where
  slots : Array Slot
  /-- The ids of the nodes without a parent, in order. -/
  roots : List NodeId
  /-- Children come after their parents. -/
  ordered : ∀ (id : NodeId) (slot : Slot),
    slots[id]? = some slot → ∀ child ∈ slot.children, id < child

/-- Why a node cannot be appended. -/
inductive AppendError where
  | tooManyNodes
  | invalidParent (id : NodeId)
  | parentNotElement (id : NodeId)
  deriving DecidableEq, Repr

/-- The wording of an error. -/
def AppendError.message : AppendError → String
  | .tooManyNodes => "Fragment: too many nodes"
  | .invalidParent id => "Fragment: invalid parent id NodeId(" ++ toString id ++ ")"
  | .parentNotElement id => "Fragment: parent NodeId(" ++ toString id ++ ") is not an element"

namespace Fragment

/-- The fragment without nodes. -/
def empty : Fragment where
  slots := #[]
  roots := []
  ordered := by simp

instance : Inhabited Fragment := ⟨empty⟩

/-- The number of nodes. -/
def size (fragment : Fragment) : Nat :=
  fragment.slots.size

/-- The id of the node that was appended last. -/
def newest (fragment : Fragment) : NodeId :=
  fragment.size - 1

/-- The node of an id in its place. -/
def slot? (fragment : Fragment) (id : NodeId) : Option Slot :=
  fragment.slots[id]?

/-- The fragment with one more root. -/
def appendRoot (fragment : Fragment) (content : Content) : Fragment :=
  let id := fragment.size
  { slots := fragment.slots.push ⟨content, none, []⟩
    roots := fragment.roots ++ [id]
    ordered := by
      intro id slot found child member
      rw [Array.getElem?_push] at found
      split at found
      · simp only [Option.some.injEq] at found
        subst found
        simp at member
      · exact fragment.ordered id slot found child member }

/-- The fragment with one more child of a node. -/
def appendChild (fragment : Fragment) (parent : NodeId) (content : Content)
    (exists_parent : parent < fragment.size) : Fragment :=
  let id := fragment.size
  { slots :=
      (fragment.slots.modify parent fun slot =>
        { slot with children := slot.children ++ [id] }).push ⟨content, some parent, []⟩
    roots := fragment.roots
    ordered := by
      intro id slot found child member
      rw [Array.getElem?_push] at found
      split at found
      · simp only [Option.some.injEq] at found
        subst found
        simp at member
      · rw [Array.getElem?_modify] at found
        split at found
        · rename_i same
          subst same
          obtain ⟨before, present, rfl⟩ := Option.map_eq_some_iff.mp found
          simp only [List.mem_append, List.mem_singleton] at member
          rcases member with member | rfl
          · exact fragment.ordered parent before present child member
          · exact exists_parent
        · exact fragment.ordered id slot found child member }

/-- The greatest number of nodes; ids have 32 bits. -/
def capacity : Nat := 1 <<< 32

/-- Appends a node as the last root, or as the last child of an element. -/
def append (fragment : Fragment) (parent : Option NodeId) (content : Content) :
    Except AppendError Fragment :=
  if capacity ≤ fragment.size then .error .tooManyNodes
  else
    match parent with
    | none => .ok (fragment.appendRoot content)
    | some id =>
      if present : id < fragment.size then
        if (fragment.slots[Fin.mk id present]).content.isElement then
          .ok (fragment.appendChild id content present)
        else .error (.parentNotElement id)
      else .error (.invalidParent id)

/-- Appending adds one node. -/
theorem size_append {fragment grown : Fragment} {parent : Option NodeId} {content : Content}
    (appended : fragment.append parent content = .ok grown) : grown.size = fragment.size + 1 := by
  unfold append at appended
  split at appended
  · cases appended
  · split at appended
    · cases appended
      simp [appendRoot, size]
    · split at appended
      · split at appended
        · cases appended
          simp [appendChild, size]
        · cases appended
      · cases appended

end Fragment

/-! ### Trees -/

/-- A node with its id and all that is below it. -/
inductive Tree where
  | node (id : NodeId) (content : Content) (children : List Tree)

namespace Tree

instance : Inhabited Tree := ⟨.node 0 (.text "") []⟩

/-- The id of the topmost node. -/
def id : Tree → NodeId
  | .node id _ _ => id

/-- The topmost node. -/
def content : Tree → Content
  | .node _ content _ => content

/-- The trees below the topmost node. -/
def children : Tree → List Tree
  | .node _ _ children => children

mutual

/-- Twice the number of nodes. -/
def weight : Tree → Nat
  | .node _ _ children => 2 + weightAll children

/-- Twice the number of nodes of a forest. -/
def weightAll : List Tree → Nat
  | [] => 0
  | tree :: rest => weight tree + weightAll rest

end

theorem weight_eq (tree : Tree) : tree.weight = 2 + weightAll tree.children := by
  cases tree
  simp [weight, children]

end Tree

namespace Fragment

/-- The node of an id and all that is below it. -/
def tree? (fragment : Fragment) (id : NodeId) : Option Tree :=
  match _found : fragment.slots[id]? with
  | none => none
  | some slot =>
    some (.node id slot.content
      (slot.children.attach.filterMap fun ⟨child, _member⟩ =>
        fragment.tree? child))
termination_by fragment.slots.size - id
decreasing_by
  exact Nat.sub_lt_sub_left (Array.getElem?_eq_some_iff.mp _found).1
    (fragment.ordered id slot _found child _member)

/-- The trees of a sequence of ids. -/
def trees (fragment : Fragment) (ids : List NodeId) : List Tree :=
  ids.filterMap fragment.tree?

/-- The trees of the roots. -/
def rootTrees (fragment : Fragment) : List Tree :=
  fragment.trees fragment.roots

end Fragment

end DataBind.Markup
