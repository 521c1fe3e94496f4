/-
**A context as an object.**

Expressions see a context in two ways: a name is looked up in it, and `$context` is an object with the
names as its properties. In the object an alias takes the place of an implicit name; a lookup passes
over such an alias. For all other names both are the same.

* `Value.contents`: a value without the identities of its arrays and objects;
* `Entries.lookup_ofList`: in an object the last one of equal keys counts;
* `Context.property?_toValue`: a property is what the alias of its name denotes, or else the lookup;
* `Shown`, `shown_along`: what the object of a context shows, after every path.
-/

import DataBind.Proofs.Context.Path
import DataBind.Value.Equality

namespace DataBind

/-! ### Values up to identities -/

namespace Value

mutual

/-- The value without the identities of its arrays and objects. -/
def contents : Value → Value
  | .array _ items => .array 0 (itemContents items)
  | .object _ entries => .object 0 (entryContents entries)
  | value => value

/-- The items without the identities of arrays and objects. -/
def itemContents : List Value → List Value
  | [] => []
  | item :: rest => contents item :: itemContents rest

/-- The entries without the identities of arrays and objects. -/
def entryContents : List (String × Value) → List (String × Value)
  | [] => []
  | (key, value) :: rest => (key, contents value) :: entryContents rest

end

mutual

/-- **Equality of contents depends on the contents only.** -/
theorem sameContents_contents : ∀ first second : Value,
    sameContents first.contents second = sameContents first second
  | .array _ items, second => by
    cases second with
    | array _ others => rw [contents, sameContents, sameContents, sameItems_contents]
    | _ => rfl
  | .object _ entries, second => by
    cases second with
    | object _ others => rw [contents, sameContents, sameContents, sameEntries_contents]
    | _ => rfl
  | .undefined, _ | .null, _ | .bool _, _ | .number _, _ | .string _, _ | .function _ _, _ => by
    rw [contents] <;> simp

theorem sameItems_contents : ∀ first second : List Value,
    sameItems (itemContents first) second = sameItems first second
  | [], second => by rw [itemContents]
  | _ :: _, [] => by rw [itemContents, sameItems, sameItems] <;> simp
  | first :: others, second :: rest => by
    rw [itemContents, sameItems, sameItems, sameContents_contents, sameItems_contents]

theorem sameEntries_contents : ∀ first second : List (String × Value),
    sameEntries (entryContents first) second = sameEntries first second
  | [], second => by rw [entryContents]
  | _ :: _, [] => by simp [entryContents, sameEntries]
  | (key, first) :: others, (other, second) :: rest => by
    rw [entryContents, sameEntries, sameEntries, sameContents_contents, sameEntries_contents]

end

theorem entryContents_append (first second : List (String × Value)) :
    entryContents (first ++ second) = entryContents first ++ entryContents second := by
  induction first with
  | nil => rw [entryContents, List.nil_append, List.nil_append]
  | cons entry rest ih =>
    rw [List.cons_append, entryContents, entryContents, ih, List.cons_append]

end Value

/-! ### Entries -/

namespace Entries

/-- What is found after an insertion: the inserted value under its key, all else as before. -/
theorem lookup_insert (key name : String) (value : Value) (entries : List (String × Value)) :
    (insert key value entries).lookup name =
      if name = key then some value else entries.lookup name := by
  split
  · rename_i same
    rw [same, lookup_insert_self]
  · rename_i different
    exact lookup_insert_ne value entries different

theorem ofList_eq (pairs : List (String × Value)) :
    ofList pairs = pairs.foldl (fun entries pair => insert pair.1 pair.2 entries) [] := rfl

/-- **Of entries with equal keys the last one counts.** -/
theorem lookup_ofList (pairs : List (String × Value)) (name : String) :
    (ofList pairs).lookup name = pairs.reverse.lookup name := by
  have onto : ∀ entries : List (String × Value),
      (pairs.foldl (fun entries pair => insert pair.1 pair.2 entries) entries).lookup name =
        (pairs.reverse.lookup name).or (entries.lookup name) := by
    induction pairs with
    | nil => exact fun entries => (Option.none_or).symm
    | cons pair rest ih =>
      intro entries
      rw [List.foldl_cons, ih, List.reverse_cons, List.lookup_append, Option.or_assoc,
        lookup_insert, List.lookup_cons, List.lookup_nil]
      by_cases same : name = pair.1
      · rw [if_pos same, beq_iff_eq.mpr same]
        rfl
      · rw [if_neg same, beq_eq_false_iff_ne.mpr same]
        rfl
  rw [ofList_eq, onto, List.lookup_nil, Option.or_none]

/-- Where a value is inserted does not depend on identities. -/
theorem entryContents_insert (key : String) (value : Value) (entries : List (String × Value)) :
    Value.entryContents (insert key value entries) =
      insert key value.contents (Value.entryContents entries) := by
  induction entries with
  | nil => rfl
  | cons entry rest ih =>
    obtain ⟨other, kept⟩ := entry
    rw [insert, Value.entryContents, insert]
    split
    · rw [Value.entryContents, Value.entryContents]
    · split
      · rw [Value.entryContents]
      · rw [Value.entryContents, ih]

theorem entryContents_ofList (pairs : List (String × Value)) :
    Value.entryContents (ofList pairs) = ofList (Value.entryContents pairs) := by
  have onto : ∀ entries : List (String × Value),
      Value.entryContents (pairs.foldl (fun entries pair => insert pair.1 pair.2 entries) entries) =
        (Value.entryContents pairs).foldl (fun entries pair => insert pair.1 pair.2 entries)
          (Value.entryContents entries) := by
    induction pairs with
    | nil => exact fun entries => rfl
    | cons pair rest ih =>
      intro entries
      rw [List.foldl_cons, ih, entryContents_insert, Value.entryContents, List.foldl_cons]
  rw [ofList_eq, ofList_eq]
  exact onto []

end Entries

/-! ### Names -/

/-- The names that have a meaning in every context. -/
def implicitNames : List String :=
  ["$data", "$rawData", "$root", "$parent", "$parents", "$parentContext", "$index", "$context"]

namespace Context

/-- A context is the same object up to identities, wherever new identities start. -/
theorem contents_scopesToValue (rootData : Value) (scope : Scope) (outer : List Scope)
    (fresh other : Nat) :
    (scopesToValue rootData scope outer fresh).1.contents =
      (scopesToValue rootData scope outer other).1.contents := by
  induction outer generalizing scope fresh other with
  | nil =>
    simp only [scopesToValue, Value.contents, Entries.entryContents_ofList,
      Value.entryContents_append, Value.entryContents]
  | cons parent rest ih =>
    simp only [scopesToValue, Value.contents, Entries.entryContents_ofList,
      Value.entryContents_append, Value.entryContents, ih parent (fresh + 1) (other + 1)]

theorem contents_toValue (context : Context) (fresh other : Nat) :
    (context.toValue fresh).1.contents = (context.toValue other).1.contents :=
  contents_scopesToValue context.rootData context.scope context.enclosing fresh other

/-- An alias is looked up under every name that has no meaning of its own. -/
theorem lookup_of_not_mem (context : Context) {name : String} (free : name ∉ implicitNames)
    (fresh : Nat) : (context.lookup name fresh).map Prod.fst = context.alias? name := by
  simp only [implicitNames, List.mem_cons, List.not_mem_nil, or_false, not_or] at free
  unfold lookup
  split
  · exact absurd rfl free.1
  · exact absurd rfl free.2.1
  · exact absurd rfl free.2.2.1
  · exact absurd rfl free.2.2.2.1
  · exact absurd rfl free.2.2.2.2.1
  · exact absurd rfl free.2.2.2.2.2.1
  · exact absurd rfl free.2.2.2.2.2.2.1
  · exact absurd rfl free.2.2.2.2.2.2.2
  · rw [Option.map_map]
    exact congrFun Option.map_id _

/-- The properties that a context has as an object, apart from its aliases. -/
def implicitEntries (context : Context) (fresh : Nat) : List (String × Value) :=
  [("$data", context.data), ("$rawData", context.data), ("$root", context.rootData),
    ("$parents", .array fresh context.parents)] ++
  (match context.parent? with
    | none => []
    | some parent =>
      [("$parent", parent.data), ("$parentContext", (parent.toValue (fresh + 1)).1)]) ++
  (match context.index with
    | none => []
    | some index => [("$index", Value.ofNat index)])

/-- **The object of a context** has the implicit names as properties, and then the aliases. -/
theorem exists_toValue (context : Context) (fresh : Nat) :
    ∃ identity, (context.toValue fresh).1 = .object identity
      (Entries.ofList (context.implicitEntries fresh ++ context.scope.aliases.reverse)) := by
  obtain ⟨root, ⟨data, index, aliases⟩, enclosing⟩ := context
  cases enclosing <;> cases index <;> exact ⟨_, rfl⟩

theorem parentData?_eq (context : Context) :
    context.parentData? = context.parent?.map Context.data := by
  obtain ⟨root, scope, enclosing⟩ := context
  cases enclosing <;> rfl

/-- **The properties of implicit names** are what these names denote. -/
theorem lookup_implicitEntries (context : Context) {name : String} (other : name ≠ "$context")
    (fresh next : Nat) :
    ((context.implicitEntries fresh).reverse.lookup name).map Value.contents =
      if name ∈ implicitNames then ((context.lookup name next).map Prod.fst).map Value.contents
      else none := by
  by_cases implied : name ∈ implicitNames
  · have outer : ∀ parent : Context,
        (parent.toValue (fresh + 1)).1.contents = (parent.toValue next).1.contents :=
      fun parent => contents_toValue parent _ _
    have parents : (Value.array fresh context.parents).contents =
        (Value.array next context.parents).contents := by
      rw [Value.contents, Value.contents]
    have parentData := parentData?_eq context
    rw [if_pos implied]
    simp only [implicitNames, List.mem_cons, List.not_mem_nil, or_false] at implied
    unfold implicitEntries
    -- a context has a parent or none, and an index or none
    rcases implied with rfl | rfl | rfl | rfl | rfl | rfl | rfl | rfl
    case inr.inr.inr.inr.inr.inr.inr => exact absurd rfl other
    all_goals
      cases above : context.parent? <;> cases position : context.index <;>
        simp [lookup, List.lookup_cons, *]
  · have named : ∀ entry ∈ context.implicitEntries fresh, entry.1 ∈ implicitNames := by
      unfold implicitEntries
      cases context.parent? <;> cases context.index <;> simp [implicitNames]
    have missing : (context.implicitEntries fresh).reverse.lookup name = none := by
      refine List.lookup_eq_none_iff.mpr fun entry member => ?_
      refine bne_iff_ne.mpr fun same => implied ?_
      rw [same]
      exact named entry (List.mem_reverse.mp member)
    rw [if_neg implied, missing, Option.map_none]

/-- **A property of a context as an object**: what the alias of its name denotes, or else what the
name does when it is looked up. -/
theorem property?_toValue (context : Context) {name : String} (other : name ≠ "$context")
    (fresh next : Nat) :
    ((context.toValue fresh).1.property? name).map Value.contents =
      ((context.alias? name).or ((context.lookup name next).map Prod.fst)).map Value.contents := by
  obtain ⟨identity, same⟩ := exists_toValue context fresh
  rw [same, Value.property?, Entries.lookup_ofList, List.reverse_append, List.reverse_reverse,
    List.lookup_append, alias?]
  cases aliased : context.scope.aliases.lookup name with
  | some value => rfl
  | none =>
    rw [Option.none_or, Option.none_or, lookup_implicitEntries context other fresh next]
    by_cases implied : name ∈ implicitNames
    · rw [if_pos implied]
    · rw [if_neg implied, lookup_of_not_mem context implied next, alias?, aliased]
      rfl

/-- Where no alias takes the place of an implicit name, the object shows what names denote. -/
theorem property?_toValue_of_not_hidden (context : Context) {name : String}
    (other : name ≠ "$context") (free : name ∈ implicitNames → context.alias? name = none)
    (fresh next : Nat) :
    ((context.toValue fresh).1.property? name).map Value.contents =
      ((context.lookup name next).map Prod.fst).map Value.contents := by
  rw [property?_toValue context other fresh next]
  by_cases implied : name ∈ implicitNames
  · rw [free implied, Option.none_or]
  · rw [lookup_of_not_mem context implied next, Option.or_self]

end Context

/-! ### What a context shows of its path -/

/-- **What the object of a context shows**, given the path to the context. -/
structure Shown (path : List Move) (context : Context) : Prop where
  /-- A property is the value introduced last under its name, or else what the name denotes. -/
  property : ∀ name, name ≠ "$context" → ∀ fresh next,
    ((context.toValue fresh).1.property? name).map Value.contents =
      ((path.findSome? (Move.introduced? name)).or
        ((context.lookup name next).map Prod.fst)).map Value.contents
  /-- So it is what the name denotes, but for implicit names that some move introduces. -/
  agrees : ∀ name, name ≠ "$context" →
    (name ∈ implicitNames → ∀ move ∈ path, move.introduced? name = none) → ∀ fresh next,
    ((context.toValue fresh).1.property? name).map Value.contents =
      ((context.lookup name next).map Prod.fst).map Value.contents
  /-- The data of `$parentContext` is `$parent`, but if some move to the parent introduces it. -/
  parentData : ∀ outer ∈ (outerPaths path).head?,
    (∀ move ∈ outer, move.introduced? "$data" = none) → ∀ fresh next,
    ((context.lookup "$parentContext" fresh).bind fun (parent, _) =>
        parent.property? "$data").map Value.contents =
      ((context.lookup "$parent" next).map Prod.fst).map Value.contents

/-- **What every context shows of the path to it.** -/
theorem shown_along (root : Value) (path : List Move) : Shown path (Context.along root path) where
  property := fun name other fresh next => by
    rw [Context.property?_toValue _ other fresh next, (described_along root path).aliases]
  agrees := fun name other free fresh next => by
    refine Context.property?_toValue_of_not_hidden _ other (fun implied => ?_) fresh next
    rw [(described_along root path).aliases, List.findSome?_eq_none_iff]
    exact free implied
  parentData := fun outer last free fresh next => by
    have parent : (Context.along root path).parent? = some (Context.along root outer) := by
      rw [(described_along root path).parent, Option.mem_def.mp last, Option.map_some]
    have hidden : (Context.along root outer).alias? "$data" = none := by
      rw [(described_along root outer).aliases, List.findSome?_eq_none_iff]
      exact free
    have shown := @Context.property?_toValue_of_not_hidden (Context.along root outer) "$data"
      (by decide) (fun _ => hidden) fresh next
    rw [Context.lookup, Context.lookup, parent, Context.parentData?_eq, parent]
    exact shown

/-- An iteration whose item is named like the root value: `$context.$root` is the item, and `$root`
is the root value. -/
theorem property?_toValue_ne_lookup :
    let context := Context.along (.string "r") [.iteration (.string "x") 0 (some "$root")]
    (context.toValue 0).1.property? "$root" = some (.string "x") ∧
      context.lookup "$root" 0 = some (.string "r", 0) ∧
      ((context.toValue 0).1.property? "$root").map Value.contents ≠
        ((context.lookup "$root" 0).map Prod.fst).map Value.contents := by
  refine ⟨rfl, rfl, fun same => ?_⟩
  have texts : some (Value.string "x") = some (.string "r") := same
  simp at texts

end DataBind
