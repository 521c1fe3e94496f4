/-
**What a context says about the way to it.**

A context is reached from the root context of a value: scopes are entered, for other data or for one
iteration, data is replaced, and aliases are given. What the names in a context denote can be read
off the moves that lead to it.

* `Move`, `Context.along`: the moves, and the context that a path of them leads to;
* `outerPaths`: the paths to the contexts that a context stands in, innermost first;
* `Context.enclosing_along`, `Context.aliases_along`: the scopes and the aliases along a path;
* `Described`, `described_along`: what a context at the end of a path says about the path.
-/

import DataBind.Context

namespace DataBind

/-! ### Moves -/

/-- A way to get a context from another one. -/
inductive Move where
  /-- Entering a scope with other data. -/
  | scope (data : Value)
  /-- Entering one iteration, which may name its item. -/
  | iteration (item : Value) (index : Nat) (alias? : Option String)
  /-- Replacing the data of the scope. -/
  | rescope (data : Value)
  /-- Giving an alias. -/
  | naming (name : String) (value : Value)

namespace Move

/-- The context that a move leads to. -/
def apply (context : Context) : Move → Context
  | .scope data => context.deriveFor data
  | .iteration item index alias? => context.deriveForIteration item index alias?
  | .rescope data => context.rescoped data
  | .naming name value => context.withAlias name value

/-- Whether a move enters a scope. -/
def enters : Move → Bool
  | .scope _ | .iteration _ _ _ => true
  | .rescope _ | .naming _ _ => false

/-- The data that a move leads to. -/
def data? : Move → Option Value
  | .scope data | .iteration data _ _ | .rescope data => some data
  | .naming _ _ => none

/-- The aliases that a move introduces. -/
def aliases : Move → List (String × Value)
  | .iteration item _ alias? => alias?.toList.map fun name => (name, item)
  | .naming name value => [(name, value)]
  | .scope _ | .rescope _ => []

/-- The value that a move introduces under a name. -/
def introduced? (name : String) (move : Move) : Option Value :=
  move.aliases.lookup name

/-- Entering a scope puts the one before around it. -/
theorem enclosing_apply (context : Context) (move : Move) :
    (move.apply context).enclosing =
      if move.enters then context.scope :: context.enclosing else context.enclosing := by
  cases move with
  | iteration item index alias? => cases alias? <;> rfl
  | _ => rfl

theorem rootData_apply (context : Context) (move : Move) :
    (move.apply context).rootData = context.rootData := by
  cases move with
  | iteration item index alias? => cases alias? <;> rfl
  | _ => rfl

theorem data_apply (context : Context) (move : Move) :
    (move.apply context).data = move.data?.getD context.data := by
  cases move with
  | iteration item index alias? => cases alias? <;> rfl
  | _ => rfl

/-- Aliases are inherited, and those of the last move come first. -/
theorem aliases_apply (context : Context) (move : Move) :
    (move.apply context).scope.aliases = move.aliases ++ context.scope.aliases := by
  cases move with
  | iteration item index alias? => cases alias? <;> rfl
  | _ => rfl

/-- The index is that of the scope entered. -/
theorem index_apply (context : Context) (move : Move) :
    (move.apply context).index =
      match move with
      | .scope _ => none
      | .iteration _ index _ => some index
      | .rescope _ | .naming _ _ => context.index := by
  cases move with
  | iteration item index alias? => cases alias? <;> rfl
  | _ => rfl

end Move

/-! ### Paths -/

/-- The context that a path leads to from the root context of a value; its last move comes first. -/
def Context.along (root : Value) : List Move → Context
  | [] => .root root
  | move :: earlier => move.apply (along root earlier)

/-- The paths to the contexts from which scopes were entered, the innermost one first. -/
def outerPaths : List Move → List (List Move)
  | [] => []
  | move :: earlier => if move.enters then earlier :: outerPaths earlier else outerPaths earlier

/-- The contexts around the innermost enclosing context are the other enclosing ones. -/
theorem outerPaths_of_cons {path outer : List Move} {further : List (List Move)}
    (split : outerPaths path = outer :: further) : outerPaths outer = further := by
  induction path with
  | nil => cases split
  | cons move earlier ih =>
    rw [outerPaths] at split
    split at split
    · cases split
      rfl
    · exact ih split

namespace Context

/-- The root value stays along a path. -/
theorem rootData_along (root : Value) (path : List Move) : (along root path).rootData = root := by
  induction path with
  | nil => rfl
  | cons move earlier ih => rw [along, Move.rootData_apply, ih]

/-- The data at the end of a path is what was set last. -/
theorem data_along (root : Value) (path : List Move) :
    (along root path).data = (path.findSome? Move.data?).getD root := by
  induction path with
  | nil => rfl
  | cons move earlier ih =>
    rw [along, Move.data_apply, List.findSome?_cons, ih]
    cases move.data? <;> rfl

/-- **The outer scopes are those of the enclosing contexts.** -/
theorem enclosing_along (root : Value) (path : List Move) :
    (along root path).enclosing = (outerPaths path).map fun outer => (along root outer).scope := by
  induction path with
  | nil => rfl
  | cons move earlier ih =>
    rw [along, Move.enclosing_apply, outerPaths, ih]
    split <;> rfl

/-- **The aliases are those introduced along the path**, later ones first. -/
theorem aliases_along (root : Value) (path : List Move) :
    (along root path).scope.aliases = path.flatMap Move.aliases := by
  induction path with
  | nil => rfl
  | cons move earlier ih => rw [along, Move.aliases_apply, List.flatMap_cons, ih]

/-- The parent is the innermost enclosing context. -/
theorem parent?_along (root : Value) (path : List Move) :
    (along root path).parent? = (outerPaths path).head?.map (along root) := by
  unfold parent?
  rw [enclosing_along, rootData_along]
  cases split : outerPaths path with
  | nil => rfl
  | cons outer further =>
    have enclosing := enclosing_along root outer
    rw [outerPaths_of_cons split] at enclosing
    refine congrArg some ?_
    calc Context.mk root (along root outer).scope (further.map fun outer => (along root outer).scope)
      _ = ⟨(along root outer).rootData, (along root outer).scope, (along root outer).enclosing⟩ := by
        rw [rootData_along, enclosing]
      _ = along root outer := rfl

/-- The index is that of the scope entered last. -/
theorem index_along (root : Value) (path : List Move) (index : Nat) :
    (along root path).index = some index ↔
      ∃ item alias?, path.find? Move.enters = some (.iteration item index alias?) := by
  induction path with
  | nil => exact ⟨fun found => (by cases found), fun ⟨_, _, found⟩ => by cases found⟩
  | cons move earlier ih =>
    rw [along, Move.index_apply]
    cases move with
    | scope data => exact ⟨fun found => (by cases found), fun ⟨_, _, found⟩ => by cases found⟩
    | iteration item own alias? =>
      constructor
      · rintro ⟨⟩
        exact ⟨item, alias?, rfl⟩
      · rintro ⟨_, _, ⟨⟩⟩
        rfl
    | rescope data => exact ih
    | naming name value => exact ih

end Context

/-- The first of many values with a name is found in the first list that has one. -/
theorem lookup_flatMap {α : Type} (entries : α → List (String × Value)) (name : String)
    (items : List α) :
    (items.flatMap entries).lookup name = items.findSome? fun item => (entries item).lookup name := by
  induction items with
  | nil => rfl
  | cons item rest ih =>
    rw [List.flatMap_cons, List.lookup_append, List.findSome?_cons, ih]
    cases (entries item).lookup name <;> rfl

/-! ### What a context says about its path -/

/-- **What a context says about the path to it.** -/
structure Described (root : Value) (path : List Move) (context : Context) : Prop where
  /-- The root value is the one the path starts at. -/
  rootData : context.rootData = root
  /-- The data is what was set last. -/
  data : context.data = (path.findSome? Move.data?).getD root
  /-- The parents are the data of the enclosing contexts. -/
  parents : context.parents = (outerPaths path).map fun outer => (Context.along root outer).data
  parent : context.parent? = (outerPaths path).head?.map (Context.along root)
  /-- The data of the parent is the first of the parents. -/
  parentData : context.parentData? = context.parents.head?
  /-- There is an index if the scope entered last is an iteration, and it is its index. -/
  index : ∀ index, context.index = some index ↔
    ∃ item alias?, path.find? Move.enters = some (.iteration item index alias?)
  /-- An alias denotes the value introduced last under its name. -/
  aliases : ∀ name, context.alias? name = path.findSome? (Move.introduced? name)

/-- **Every context describes the path to it.** -/
theorem described_along (root : Value) (path : List Move) :
    Described root path (Context.along root path) where
  rootData := Context.rootData_along root path
  data := Context.data_along root path
  parents := by
    rw [Context.parents, Context.enclosing_along, List.map_map]
    rfl
  parent := Context.parent?_along root path
  parentData := (List.head?_map ..).symm
  index := Context.index_along root path
  aliases := fun name => by
    rw [Context.alias?, Context.aliases_along, lookup_flatMap]
    rfl

end DataBind
