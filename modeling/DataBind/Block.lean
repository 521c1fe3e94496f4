/-
**Blocks: pairs of start and end marker comments.**

Comments that open and close blocks are matched like brackets, in document order. The markers of a
block have the same parent, and its body is what stands between them. An end marker without a
start marker is warned about and otherwise ignored.

* `Index.find?_insert_self`: a block is found under its start marker;
* `Index.size_erase_lt`: an index without a block that it had is smaller;
* `siblingsBetween`: the nodes strictly between two siblings.
-/

import DataBind.Binding.Directive
import DataBind.Markup.Walk
import DataBind.Problem

namespace DataBind

open Markup

/-- A block: its binding, the ids of its markers, and the siblings between them. -/
structure Block where
  binding : Binding
  start : NodeId
  finish : NodeId
  body : List Tree

namespace Block

/-- The blocks of a template; each start marker has at most one. -/
structure Index where
  blocks : List Block

namespace Index

/-- The index without blocks. -/
def empty : Index :=
  ⟨[]⟩

/-- The block of a start marker. -/
def find? (index : Index) (start : NodeId) : Option Block :=
  index.blocks.find? fun block => block.start == start

/-- The index without the block of a start marker. -/
def erase (index : Index) (start : NodeId) : Index :=
  ⟨index.blocks.filter fun block => block.start != start⟩

/-- The index with one more block, which replaces one of the same start marker. -/
def insert (index : Index) (block : Block) : Index :=
  ⟨block :: (index.erase block.start).blocks⟩

/-- The number of blocks. -/
def size (index : Index) : Nat :=
  index.blocks.length

/-- A block is found under its start marker. -/
theorem find?_insert_self (index : Index) (block : Block) :
    (index.insert block).find? block.start = some block := by
  simp [insert, find?]

/-- An index without a block that it had is smaller. -/
theorem size_erase_lt {index : Index} {start : NodeId} {block : Block}
    (found : index.find? start = some block) : (index.erase start).size < index.size := by
  have member : block ∈ index.blocks := List.mem_of_find?_eq_some found
  have same : (block.start == start) = true := by
    simpa using List.find?_some found
  refine List.length_filter_lt_length_iff_exists.mpr ⟨block, member, ?_⟩
  simpa using same

end Index

/-- A start marker whose end marker has not been met. -/
structure Unclosed where
  binding : Binding
  start : Tree
  parent : Option NodeId

/-- The state of matching: the open blocks, innermost first, and what has been found. -/
structure Matching where
  unclosed : List Unclosed
  index : Index
  warnings : List Warning
  error : Option CompileError

namespace Matching

/-- The start of matching. -/
def start : Matching :=
  ⟨[], .empty, [], none⟩

end Matching

/-- The text of a marker as messages show it. -/
def markerText (marker : Tree) : String :=
  match marker.content with
  | .comment text => Text.trimmed text
  | _ => ""

/-- The nodes strictly between the first nodes of two ids, if they stand in this order. -/
def siblingsBetween (siblings : List Tree) (start finish : NodeId) : List Tree :=
  match siblings.findIdx? (fun tree => tree.id == start),
      siblings.findIdx? (fun tree => tree.id == finish) with
  | some first, some last => (siblings.take last).drop (first + 1)
  | _, _ => []

/-- What a comment says; other nodes say nothing. -/
def directive? (config : Config) (node : Tree) : Option Binding.Directive :=
  node.content.comment?.bind fun text => Binding.parseDirective text config

/-- Matches the end marker of a visit. -/
def close (nodes : List Tree) (state : Matching) (visit : Visit) : Matching × Action :=
  match state.unclosed with
  | [] =>
    ({ state with warnings := state.warnings ++ [.danglingEnd (markerText visit.node)] }, .descend)
  | innermost :: outer =>
    if innermost.parent = visit.parent.map Tree.id then
      let siblings := (visit.parent.map Tree.children).getD nodes
      let block :=
        { binding := innermost.binding
          start := innermost.start.id
          finish := visit.node.id
          body := siblingsBetween siblings innermost.start.id visit.node.id }
      ({ state with unclosed := outer, index := state.index.insert block }, .descend)
    else
      ({ state with
          unclosed := outer
          error := some (.unbalancedBlock (markerText innermost.start)) }, .stop)

/-- The visitor that matches markers; `nodes` is the forest walked. -/
def matchVisit (config : Config) (nodes : List Tree) (state : Matching) (visit : Visit) :
    Matching × Action :=
  if !visit.isOpening then (state, .descend)
  else
    match directive? config visit.node with
    | none => (state, .descend)
    | some (.opening binding) =>
      let opened := ⟨binding, visit.node, visit.parent.map Tree.id⟩
      ({ state with unclosed := opened :: state.unclosed }, .descend)
    | some .closing => close nodes state visit

/-- The blocks of a forest. -/
def matchBlocks (config : Config) (nodes : List Tree) : Checked Index :=
  let state := (walk (matchVisit config nodes) .start nodes).1
  match state.error, state.unclosed with
  | some error, _ => ⟨state.warnings, .error error⟩
  | none, innermost :: _ =>
    ⟨state.warnings, .error (.unclosedBlock (markerText innermost.start))⟩
  | none, [] => ⟨state.warnings, .ok state.index⟩

end Block

end DataBind
