/-
**From events to a fragment.**

Elements that have been opened and not closed are kept on a stack. An end tag closes the innermost
open element of its name and all inside it; without one it is dropped. What is still open at the
end is closed there.

* `Builder.add_text`: text becomes a child of the innermost open element;
* `parse_error_of_events`: markup whose events end in an error is not accepted.
-/

import DataBind.Markup.Event
import DataBind.Markup.Print

namespace DataBind.Markup

/-- A fragment under construction, with its open elements, innermost first. -/
structure Builder where
  fragment : Fragment
  unclosed : List (NodeId × String)

namespace Builder

/-- The start of a construction. -/
def empty : Builder :=
  ⟨.empty, []⟩

/-- Appends a node to the innermost open element. -/
def append : Builder → Content → Except AppendError Builder
  | ⟨fragment, unclosed⟩, content =>
    (fragment.append (unclosed.head?.map Prod.fst) content).map fun grown => ⟨grown, unclosed⟩

/-- The open elements after an end tag. -/
def close (tag : String) (unclosed : List (NodeId × String)) : List (NodeId × String) :=
  match unclosed.dropWhile fun (_, name) => name != tag with
  | [] => unclosed
  | _ :: outer => outer

/-- Takes in one event. -/
def add (builder : Builder) : Event → Except AppendError Builder
  | .text text => builder.append (.text text)
  | .comment text => builder.append (.comment text)
  | .declaration text => builder.append (.declaration text)
  | .raw tag attributes content => builder.append (.raw tag attributes content)
  | .opening tag attributes selfClosing =>
    (builder.append (.element tag attributes)).map fun grown =>
      if selfClosing || isVoid tag then grown
      else { grown with unclosed := (grown.fragment.newest, tag) :: grown.unclosed }
  | .closing tag => .ok { builder with unclosed := close tag builder.unclosed }

theorem add_text (builder : Builder) (text : String) :
    builder.add (.text text) = builder.append (.text text) := rfl

end Builder

/-- The fragment of markup. Building goes on up to the place where reading stopped, so that its
errors come first. -/
def parse (markup : String) : Except MarkupError Fragment :=
  let (found, error) := events markup
  match found.foldlM Builder.add Builder.empty with
  | .error cause => .error (.tree cause)
  | .ok builder =>
    match error with
    | some error => .error error
    | none => .ok builder.fragment

/-- Markup whose events end in an error is not accepted. -/
theorem parse_error_of_events {markup : String} {error : MarkupError}
    (failed : (events markup).2 = some error) : ∃ cause, parse markup = .error cause := by
  unfold parse
  simp only [failed]
  split
  · exact ⟨_, rfl⟩
  · exact ⟨_, rfl⟩

end DataBind.Markup
