/-
**Marker comments as brackets.**

The start and end markers of a sibling list are its brackets. A list is balanced if they match; a
forest is nested if they match in every sibling list inside it, except that end markers outside of
every block may be left over.

* `balancedFrom`: whether the brackets of one sibling list match, at a depth;
* `nestedFrom`: whether the brackets of all sibling lists match, block bodies included;
* `splitBlock?`: the siblings up to the end marker of an open block, and those after it;
* `splitBlock?_of_balanced`: the end marker of a block is the one after a balanced body;
* `exists_finish_of_nestedFrom`: in a nested list every open block has its end marker.
-/

import DataBind.Block
import DataBind.Proofs.Markup.Subtrees

namespace DataBind.Block

open Markup

variable {config : Config}

/-! ### One sibling list -/

/-- The number of open blocks after a sibling, given the number before it; nothing if it is an end
marker and no block is open. -/
def depthAfter (config : Config) (depth : Nat) (node : Tree) : Option Nat :=
  match directive? config node with
  | none => some depth
  | some (.opening _) => some (depth + 1)
  | some .closing => if depth = 0 then none else some (depth - 1)

/-- Whether the markers of a sibling list match, inside of `depth` open blocks. -/
def balancedFrom (config : Config) : Nat → List Tree → Bool
  | depth, [] => depth == 0
  | depth, node :: rest =>
    match depthAfter config depth node with
    | none => false
    | some depth => balancedFrom config depth rest

/-- The markers of a sibling list form a balanced bracket sequence. -/
def Balanced (config : Config) (siblings : List Tree) : Prop :=
  balancedFrom config 0 siblings = true

instance (config : Config) (siblings : List Tree) : Decidable (Balanced config siblings) :=
  inferInstanceAs (Decidable (balancedFrom config 0 siblings = true))

/-- The siblings up to the end marker of the outermost of `depth + 1` open blocks, that marker, and
the siblings after it. -/
def splitBlock? (config : Config) : Nat → List Tree → Option (List Tree × Tree × List Tree)
  | _, [] => none
  | depth, node :: rest =>
    match depthAfter config depth node with
    | none => some ([], node, rest)
    | some depth =>
      (splitBlock? config depth rest).map fun (body, finish, after) => (node :: body, finish, after)

theorem depthAfter_eq_none {depth : Nat} {node : Tree} :
    depthAfter config depth node = none ↔ depth = 0 ∧ directive? config node = some .closing := by
  unfold depthAfter
  split
  · rename_i plain
    simp [plain]
  · rename_i opening
    simp [opening]
  · rename_i closing
    simp [closing]

/-- A sibling that closes no outer block has the same effect inside of more blocks. -/
theorem depthAfter_add {inner next : Nat} {node : Tree}
    (stays : depthAfter config inner node = some next) (depth : Nat) :
    depthAfter config (depth + inner) node = some (depth + next) := by
  unfold depthAfter at stays ⊢
  split at stays
  · rw [Option.some.inj stays]
  · rw [← Option.some.inj stays]
    rfl
  · split at stays
    · cases stays
    · rename_i opening
      rw [if_neg (by omega), ← Option.some.inj stays]
      congr 1
      omega

/-- A split puts the siblings together again; the body is balanced down to the end marker. -/
theorem splitBlock?_eq_some {depth : Nat} {siblings body after : List Tree} {finish : Tree}
    (split : splitBlock? config depth siblings = some (body, finish, after)) :
    siblings = body ++ finish :: after ∧ directive? config finish = some .closing ∧
      balancedFrom config depth body = true := by
  induction siblings generalizing depth body with
  | nil => cases split
  | cons node rest ih =>
    rw [splitBlock?] at split
    cases step : depthAfter config depth node with
    | none =>
      rw [step] at split
      cases split
      obtain ⟨rfl, closing⟩ := depthAfter_eq_none.mp step
      exact ⟨rfl, closing, rfl⟩
    | some next =>
      rw [step] at split
      obtain ⟨⟨inner, last, others⟩, found, same⟩ := Option.map_eq_some_iff.mp split
      cases same
      obtain ⟨rfl, closing, balanced⟩ := ih found
      refine ⟨rfl, closing, ?_⟩
      rw [balancedFrom, step]
      exact balanced

/-- A block and what follows it are lighter than both together. -/
theorem weightAll_lt_of_splitBlock? {depth : Nat} {siblings body after : List Tree} {finish : Tree}
    (split : splitBlock? config depth siblings = some (body, finish, after)) :
    Tree.weightAll body < Tree.weightAll siblings ∧
      Tree.weightAll after < Tree.weightAll siblings := by
  rw [(splitBlock?_eq_some split).1, Tree.weightAll_append, Tree.weightAll, Tree.weight_eq]
  constructor
  · omega
  · omega

/-- Siblings that close all blocks they are in, and no outer ones, can be passed over. -/
theorem balancedFrom_append {inner : Nat} {first : List Tree}
    (balanced : balancedFrom config inner first = true) (depth : Nat) (second : List Tree) :
    balancedFrom config (depth + inner) (first ++ second) = balancedFrom config depth second := by
  induction first generalizing inner with
  | nil =>
    rw [balancedFrom, beq_iff_eq] at balanced
    rw [balanced, List.nil_append, Nat.add_zero]
  | cons node rest ih =>
    rw [balancedFrom] at balanced
    cases step : depthAfter config inner node with
    | none =>
      rw [step] at balanced
      cases balanced
    | some next =>
      rw [step] at balanced
      rw [List.cons_append, balancedFrom, depthAfter_add step depth]
      exact ih balanced

/-- A split passes over such siblings. -/
theorem splitBlock?_append {inner : Nat} {first : List Tree}
    (balanced : balancedFrom config inner first = true) (depth : Nat) (second : List Tree) :
    splitBlock? config (depth + inner) (first ++ second) =
      (splitBlock? config depth second).map fun (body, finish, after) =>
        (first ++ body, finish, after) := by
  induction first generalizing inner with
  | nil =>
    rw [balancedFrom, beq_iff_eq] at balanced
    rw [balanced, List.nil_append, Nat.add_zero]
    exact Option.map_id'.symm
  | cons node rest ih =>
    rw [balancedFrom] at balanced
    cases step : depthAfter config inner node with
    | none =>
      rw [step] at balanced
      cases balanced
    | some next =>
      rw [step] at balanced
      rw [List.cons_append, splitBlock?, depthAfter_add step depth]
      simp only [ih balanced, Option.map_map]
      rfl

/-- What follows a split does not change it. -/
theorem splitBlock?_extend {depth : Nat} {siblings body after : List Tree} {finish : Tree}
    (split : splitBlock? config depth siblings = some (body, finish, after)) (more : List Tree) :
    splitBlock? config depth (siblings ++ more) = some (body, finish, after ++ more) := by
  obtain ⟨rfl, closing, balanced⟩ := splitBlock?_eq_some split
  have passed := splitBlock?_append balanced 0 (finish :: (after ++ more))
  rw [splitBlock?, depthAfter_eq_none.mpr ⟨rfl, closing⟩, Nat.zero_add] at passed
  rw [List.append_assoc, List.cons_append, passed, Option.map_some]
  simp only [List.append_nil]

/-- **The end marker of a block is the one after a balanced body.** -/
theorem splitBlock?_of_balanced {body : List Tree} {finish : Tree}
    (balanced : Balanced config body) (closing : directive? config finish = some .closing)
    (after : List Tree) :
    splitBlock? config 0 (body ++ finish :: after) = some (body, finish, after) := by
  have passed := splitBlock?_append balanced 0 (finish :: after)
  rw [splitBlock?, depthAfter_eq_none.mpr ⟨rfl, closing⟩] at passed
  rw [passed, Option.map_some]
  simp only [List.append_nil]

/-! ### All sibling lists -/

mutual

/-- Whether the markers below a node match in every sibling list. Outside of every block, `loose`
allows end markers that close nothing. -/
def nestedBelow (config : Config) (loose : Bool) : Tree → Bool
  | .node _ _ children => nestedFrom config loose 0 children

/-- Whether the markers of a sibling list, inside of `depth` open blocks, match in it and in every
sibling list below it. -/
def nestedFrom (config : Config) (loose : Bool) : Nat → List Tree → Bool
  | depth, [] => depth == 0
  | depth, node :: rest =>
    nestedBelow config (loose && depth == 0) node &&
      match depthAfter config depth node with
      | none => loose && nestedFrom config loose 0 rest
      | some depth => nestedFrom config loose depth rest

end

/-- The forest is nested as a whole. -/
def Nested (config : Config) (loose : Bool) (nodes : List Tree) : Prop :=
  nestedFrom config loose 0 nodes = true

theorem nestedBelow_eq (loose : Bool) (node : Tree) :
    nestedBelow config loose node = nestedFrom config loose 0 node.children := by
  obtain ⟨id, content, children⟩ := node
  rw [nestedBelow]
  rfl

section Steps

variable {loose : Bool} {depth : Nat} {node : Tree}

theorem nestedFrom_plain (plain : directive? config node = none) (rest : List Tree) :
    nestedFrom config loose depth (node :: rest) =
      (nestedFrom config (loose && depth == 0) 0 node.children &&
        nestedFrom config loose depth rest) := by
  rw [nestedFrom, nestedBelow_eq, depthAfter, plain]

theorem nestedFrom_opening {binding : Binding}
    (opening : directive? config node = some (.opening binding)) (leaf : node.children = [])
    (rest : List Tree) :
    nestedFrom config loose depth (node :: rest) = nestedFrom config loose (depth + 1) rest := by
  rw [nestedFrom, nestedBelow_eq, leaf, depthAfter, opening]
  rfl

theorem nestedFrom_closing (closing : directive? config node = some .closing)
    (leaf : node.children = []) (rest : List Tree) :
    nestedFrom config loose (depth + 1) (node :: rest) = nestedFrom config loose depth rest := by
  rw [nestedFrom, nestedBelow_eq, leaf, depthAfter, closing]
  rfl

theorem nestedFrom_dangling (closing : directive? config node = some .closing)
    (leaf : node.children = []) (rest : List Tree) :
    nestedFrom config loose 0 (node :: rest) = (loose && nestedFrom config loose 0 rest) := by
  rw [nestedFrom, nestedBelow_eq, leaf, depthAfter, closing]
  rfl

end Steps

/-- **Inside of a block there is its end marker**, and the siblings around it are nested. -/
theorem exists_finish_of_nestedFrom {loose : Bool} (depth inner : Nat) {siblings : List Tree}
    (nested : nestedFrom config loose (depth + inner + 1) siblings = true) :
    ∃ body finish after, siblings = body ++ finish :: after ∧
      directive? config finish = some .closing ∧ nestedFrom config false inner body = true ∧
      nestedBelow config false finish = true ∧ nestedFrom config loose depth after = true := by
  induction siblings generalizing inner with
  | nil => simp [nestedFrom] at nested
  | cons node rest ih =>
    rw [nestedFrom, Bool.and_eq_true] at nested
    obtain ⟨below, later⟩ := nested
    have strict : (loose && depth + inner + 1 == 0) = false := by simp
    rw [strict] at below
    cases step : depthAfter config inner node with
    | none =>
      obtain ⟨rfl, closing⟩ := depthAfter_eq_none.mp step
      refine ⟨[], node, rest, rfl, closing, rfl, below, ?_⟩
      simpa [depthAfter, closing] using later
    | some next =>
      have outer := depthAfter_add step (depth + 1)
      rw [show depth + inner + 1 = depth + 1 + inner by omega, outer,
        show depth + 1 + next = depth + next + 1 by omega] at later
      obtain ⟨body, finish, after, rfl, closing, inside, leaf, others⟩ := ih next later
      refine ⟨node :: body, finish, after, rfl, closing, ?_, leaf, others⟩
      rw [nestedFrom, step, Bool.and_eq_true]
      exact ⟨below, inside⟩

end DataBind.Block
