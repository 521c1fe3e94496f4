/-
**Bindings in comments.**

A comment `ko kind: value` or `hz kind: value` opens a block, and `/ko` or `/hz` closes one. With
the option against conflicts the `ko` forms are plain comments.

* `parseDirective_close`: which comments close a block.
-/

import DataBind.Binding.Basic
import DataBind.Config
import DataBind.Text.Search

namespace DataBind.Binding

open DataBind.Text

/-- What a comment can say. -/
inductive Directive where
  | opening (binding : Binding)
  | closing
  deriving DecidableEq, Repr

/-- What follows one of the two marks of an opening comment. -/
def afterMark? (text : List Char) : Option (List Char) :=
  match afterLead? ['k', 'o'] text with
  | some rest => some rest
  | none => afterLead? ['h', 'z'] text

/-- A text without trailing spaces. -/
def trimSpaces (text : List Char) : List Char :=
  (text.reverse.dropWhile (· == ' ')).reverse

/-- The binding after the mark of an opening comment: spaces, a kind, a colon and a value. -/
def parseOpening? (text : List Char) : Option Binding :=
  match text with
  | ' ' :: _ =>
    (cutAt ':' (text.dropWhile (· == ' '))).bind fun (name, value) =>
      (Kind.ofName? (String.ofList (trimSpaces name))).bind fun kind =>
        let source := trim value
        if kind.isContainerless && !source.isEmpty then some ⟨kind, String.ofList source⟩ else none
  | _ => none

/-- Whether a trimmed comment has one of the forms that the option against conflicts excludes. -/
def isConflicting (text : List Char) : Bool :=
  (afterLead? ['k', 'o', ' '] text).isSome || text == ['/', 'k', 'o']

/-- What a comment says about blocks, if anything. -/
def parseDirective (comment : String) (config : Config) : Option Directive :=
  let text := trim comment.toList
  if config.noConflict && isConflicting text then none
  else if text = ['/', 'k', 'o'] ∨ text = ['/', 'h', 'z'] then some .closing
  else ((afterMark? text).bind parseOpening?).map .opening

/-- The comments that close a block. -/
theorem parseDirective_close (comment : String) (config : Config) :
    parseDirective comment config = some .closing ↔
      trim comment.toList = ['/', 'h', 'z'] ∨
        (trim comment.toList = ['/', 'k', 'o'] ∧ config.noConflict = false) := by
  unfold parseDirective
  simp only
  by_cases slashKo : trim comment.toList = ['/', 'k', 'o']
  · cases conflict : config.noConflict <;> simp [slashKo, isConflicting]
  · by_cases slashHz : trim comment.toList = ['/', 'h', 'z']
    · simp [slashHz, isConflicting, afterLead?]
    · split
      · simp_all
      · simp only [slashKo, slashHz, if_false, false_and, or_self, iff_false]
        cases (afterMark? (trim comment.toList)).bind parseOpening? <;> simp

end DataBind.Binding
