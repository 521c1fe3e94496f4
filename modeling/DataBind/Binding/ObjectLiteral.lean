/-
**Object literals as source text.**

An object literal is a list of entries `key: value` separated by commas, with or without braces
around it. Keys may stand in quotes; values are kept as source text.

* `parseEntries_blank`: entries of white space only are passed over.
-/

import DataBind.Binding.TopLevel

namespace DataBind.Binding

open DataBind.Text

/-- The inside of a text in quotes, escapes left as they are. -/
def unquote? (text : List Char) : Option (List Char) :=
  match trim text with
  | quote :: rest =>
    if (quote = '"' ∨ quote = '\x27') ∧ rest.getLast? = some quote then some rest.dropLast
    else none
  | [] => none

/-- A text without the braces around the whole of it. Braces that only start and end the text are
kept. -/
def stripBraces (text : List Char) : List Char :=
  match text with
  | '\x7b' :: rest =>
    if rest.getLast? = some '\x7d' then
      match topLevelPositions ',' rest.dropLast with
      | .ok _ => rest.dropLast
      | .error _ => text
    else text
  | _ => text

/-- The key and the value of an entry. -/
def parseEntry (entry : List Char) : Except LiteralError (String × String) := do
  match ← splitTopLevel ':' entry with
  | first :: _ :: _ =>
    let bare := trim first
    let key := (unquote? bare).getD bare
    if key.isEmpty then throw (.emptyKey (String.ofList entry))
    else return (String.ofList key, String.ofList (trim (entry.drop (first.length + 1))))
  | _ => throw (.missingColon (String.ofList entry))

/-- The keys and values of a list of entries, of which those without text are passed over. -/
def parseEntries : List (List Char) → Except LiteralError (List (String × String))
  | [] => .ok []
  | part :: rest =>
    let entry := trim part
    if entry.isEmpty then parseEntries rest
    else do
      let pair ← parseEntry entry
      let others ← parseEntries rest
      return pair :: others

/-- The entries of an object literal, in the order written. -/
def parseObjectLiteral (text : String) : Except LiteralError (List (String × String)) := do
  let parts ← splitTopLevel ',' (stripBraces (trim text.toList))
  parseEntries parts

/-- Entries of white space only are passed over. -/
theorem parseEntries_blank {part : List Char} (rest : List (List Char)) (blank : trim part = []) :
    parseEntries (part :: rest) = parseEntries rest := by
  simp [parseEntries, blank]

end DataBind.Binding
