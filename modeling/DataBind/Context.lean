/-
**Scopes: what the names of an expression denote.**

A context is a chain of scopes over one root value. Each scope has its own `$data`, perhaps an
iteration index, and the aliases introduced so far; new scopes are put in front of the chain.

* `parents_deriveFor`: the data of a scope is the first parent of the scopes inside it;
* `rootData_deriveFor`, `rootData_rescoped`: the root value never changes;
* `alias?_withAlias_self`: an alias denotes what it was last given.
-/

import DataBind.Value.Basic

namespace DataBind

/-- One scope: its data, its index in an iteration, and the aliases, later ones first. -/
structure Scope where
  data : Value
  index : Option Nat
  aliases : List (String × Value)

/-- A chain of scopes over a root value; `enclosing` lists the outer scopes, innermost first. -/
structure Context where
  rootData : Value
  scope : Scope
  enclosing : List Scope

namespace Context

/-- The context of a whole template. -/
def root (data : Value) : Context :=
  ⟨data, ⟨data, none, []⟩, []⟩

/-- The context inside a scope with other data. -/
def deriveFor (context : Context) (data : Value) : Context :=
  ⟨context.rootData, ⟨data, none, context.scope.aliases⟩, context.scope :: context.enclosing⟩

/-- The same context with one more alias. -/
def withAlias (context : Context) (name : String) (value : Value) : Context :=
  { context with
    scope := { context.scope with aliases := (name, value) :: context.scope.aliases } }

/-- The context of one iteration; an alias names the item too. -/
def deriveForIteration (context : Context) (item : Value) (index : Nat)
    (alias? : Option String) : Context :=
  let inner := context.deriveFor item
  let inner := { inner with scope := { inner.scope with index := some index } }
  match alias? with
  | some name => inner.withAlias name item
  | none => inner

/-- The same context with other data in its innermost scope. -/
def rescoped (context : Context) (data : Value) : Context :=
  { context with scope := { context.scope with data := data } }

/-- The value of `$data`. -/
def data (context : Context) : Value :=
  context.scope.data

/-- The index of the innermost scope, if it is an iteration's. -/
def index (context : Context) : Option Nat :=
  context.scope.index

/-- The context that a context was derived from. -/
def parent? (context : Context) : Option Context :=
  match context.enclosing with
  | [] => none
  | scope :: outer => some ⟨context.rootData, scope, outer⟩

/-- The data of the scope just outside. -/
def parentData? (context : Context) : Option Value :=
  context.enclosing.head?.map Scope.data

/-- The data of all outer scopes, innermost first. -/
def parents (context : Context) : List Value :=
  context.enclosing.map Scope.data

/-- The value of an alias. -/
def alias? (context : Context) (name : String) : Option Value :=
  context.scope.aliases.lookup name

/-- A chain of scopes as an object, with identities from `fresh` on, and the next free one. -/
def scopesToValue (rootData : Value) (scope : Scope) : List Scope → Nat → Value × Nat
  | outer, fresh =>
    let parents := Value.array fresh (outer.map Scope.data)
    let always :=
      [("$data", scope.data), ("$rawData", scope.data), ("$root", rootData), ("$parents", parents)]
    let (above, next) :=
      match outer with
      | [] => ([], fresh + 1)
      | parent :: rest =>
        let (context, next) := scopesToValue rootData parent rest (fresh + 1)
        ([("$parent", parent.data), ("$parentContext", context)], next)
    let position :=
      match scope.index with
      | none => []
      | some index => [("$index", Value.ofNat index)]
    (.object next (Entries.ofList (always ++ above ++ position ++ scope.aliases.reverse)), next + 1)

/-- A context as an object, as expressions see it. -/
def toValue (context : Context) (fresh : Nat) : Value × Nat :=
  scopesToValue context.rootData context.scope context.enclosing fresh

/-- The value of a name that starts with `$`, or of an alias; properties of the data are not among
them. Values made anew take their identities from `fresh` on. -/
def lookup (context : Context) (name : String) (fresh : Nat) : Option (Value × Nat) :=
  match name with
  | "$data" | "$rawData" => some (context.data, fresh)
  | "$root" => some (context.rootData, fresh)
  | "$parent" => context.parentData?.map fun value => (value, fresh)
  | "$parents" => some (.array fresh context.parents, fresh + 1)
  | "$parentContext" => context.parent?.map fun parent => parent.toValue fresh
  | "$index" => context.index.map fun index => (Value.ofNat index, fresh)
  | "$context" => some (context.toValue fresh)
  | _ => (context.alias? name).map fun value => (value, fresh)

/-- A number greater than every identity in a scope. -/
def scopeBound (scope : Scope) : Nat :=
  max scope.data.identityBound (Value.entriesBound scope.aliases)

/-- The first identity that no value of a context has. -/
def firstFree (context : Context) : Nat :=
  (context.enclosing.map scopeBound).foldl max
    (max context.rootData.identityBound (scopeBound context.scope))

/-! ### What derived contexts keep -/

@[simp] theorem parents_root (data : Value) : (root data).parents = [] := rfl

/-- The data of a scope is the first parent of the scopes inside it. -/
@[simp] theorem parents_deriveFor (context : Context) (data : Value) :
    (context.deriveFor data).parents = context.data :: context.parents := rfl

@[simp] theorem rootData_deriveFor (context : Context) (data : Value) :
    (context.deriveFor data).rootData = context.rootData := rfl

@[simp] theorem rootData_rescoped (context : Context) (data : Value) :
    (context.rescoped data).rootData = context.rootData := rfl

@[simp] theorem parent?_deriveFor (context : Context) (data : Value) :
    (context.deriveFor data).parent? = some context := rfl

/-- An alias denotes what it was last given. -/
theorem alias?_withAlias_self (context : Context) (name : String) (value : Value) :
    (context.withAlias name value).alias? name = some value := by
  simp [alias?, withAlias]

end Context

end DataBind
