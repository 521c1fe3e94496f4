/-
**Declarations of inline styles.**

A style is a list of declarations `property: value` separated by semicolons. Properties are in
lower case and occur once; a repeated one keeps its place and takes the later value.

* `propertyName_append`: names are converted character by character;
* `setDeclaration_keys`: setting a property that is there does not change the properties.
-/

import DataBind.Binding.TopLevel
import DataBind.Text.Case
import DataBind.Text.Search

namespace DataBind.Style

open DataBind.Text

/-- A property and its value. -/
abbrev Declaration : Type := String × String

/-- The parts between semicolons, those in brackets and quotes apart; between all semicolons if
the brackets and quotes do not match. -/
def splitDeclarations (text : List Char) : List (List Char) :=
  match Binding.splitTopLevel ';' text with
  | .ok parts => parts
  | .error _ => pieces [';'] text

/-- Whether a character can be part of a property's name. -/
def isPropertyCharacter (c : Char) : Bool :=
  c.isAlphanum || c == '-' || c == '_'

/-- The declaration of a part, if it has a name and a value. -/
def parseDeclaration? (part : List Char) : Option Declaration :=
  (cutAt ':' part).bind fun (left, right) =>
    let name := asciiLower (trim left)
    let value := trim right
    if name.isEmpty || !name.all isPropertyCharacter || value.isEmpty then none
    else some (String.ofList name, String.ofList value)

/-- Sets a property: in its place, or at the end. -/
def setDeclaration (declaration : Declaration) : List Declaration → List Declaration
  | [] => [declaration]
  | first :: rest =>
    if first.1 = declaration.1 then declaration :: rest
    else first :: setDeclaration declaration rest

/-- The declarations of a style. -/
def parseDeclarations (style : String) : List Declaration :=
  ((splitDeclarations style.toList).filterMap parseDeclaration?).foldl
    (fun declarations declaration => setDeclaration declaration declarations) []

/-- What a character of a key becomes in the name of a property. -/
def propertyCharacter (c : Char) : List Char :=
  if c.isUpper then ['-', c.toLower] else [c]

/-- The name of the property that a key in camel case stands for. -/
def propertyName (key : String) : String :=
  String.ofList (key.toList.flatMap propertyCharacter)

/-- Names are converted character by character. -/
theorem propertyName_append (first second : String) :
    propertyName (first ++ second) = propertyName first ++ propertyName second := by
  simp [propertyName]

/-- Setting a property that is there does not change the properties. -/
theorem setDeclaration_keys {declaration : Declaration} {declarations : List Declaration}
    (present : declaration.1 ∈ declarations.map Prod.fst) :
    (setDeclaration declaration declarations).map Prod.fst = declarations.map Prod.fst := by
  induction declarations with
  | nil => simp at present
  | cons first rest ih =>
    unfold setDeclaration
    split
    · simp_all
    · rename_i different
      simp only [List.map_cons, List.mem_cons] at present
      rcases present with same | present
      · exact absurd same.symm different
      · simp only [List.map_cons, ih present]

end DataBind.Style
