/-
**Writing nodes as markup.**

Void elements are closed with `/>`, all others get an end tag. Text is escaped; the content of raw
text elements and declarations is not. A comment is written with one space on either side.

* `printAll_append`: a forest is written part by part.
-/

import DataBind.Markup.Fragment

namespace DataBind.Markup

/-- The attributes of a start tag. -/
def attributesText (attributes : List Attribute) : String :=
  String.join (attributes.map fun (name, value) => attributeText name value)

/-- A start tag without its closing angle bracket. -/
def tagStart (tag : String) (attributes : List Attribute) : String :=
  "<" ++ tag ++ attributesText attributes

/-- An end tag. -/
def tagEnd (tag : String) : String :=
  "</" ++ tag ++ ">"

/-- A comment, trimmed. -/
def commentText (text : String) : String :=
  "<!-- " ++ Text.trimmed text ++ " -->"

/-- A raw text element. -/
def rawText (tag : String) (attributes : List Attribute) (content : String) : String :=
  tagStart tag attributes ++ ">" ++ content ++ tagEnd tag

/-- A declaration. -/
def declarationText (text : String) : String :=
  "<" ++ text ++ ">"

mutual

/-- A tree as markup. -/
def Tree.print : Tree → String
  | .node _ (.element tag attributes) children =>
    if isVoid tag then tagStart tag attributes ++ "/>"
    else tagStart tag attributes ++ ">" ++ Tree.printAll children ++ tagEnd tag
  | .node _ (.text text) _ => escape text
  | .node _ (.comment text) _ => commentText text
  | .node _ (.raw tag attributes content) _ => rawText tag attributes content
  | .node _ (.declaration text) _ => declarationText text

/-- A forest as markup. -/
def Tree.printAll : List Tree → String
  | [] => ""
  | tree :: rest => tree.print ++ Tree.printAll rest

end

/-- A fragment as markup. -/
def Fragment.print (fragment : Fragment) : String :=
  Tree.printAll fragment.rootTrees

/-- A forest is written part by part. -/
theorem Tree.printAll_append (first second : List Tree) :
    Tree.printAll (first ++ second) = Tree.printAll first ++ Tree.printAll second := by
  induction first with
  | nil => simp [Tree.printAll]
  | cons tree rest ih => simp [Tree.printAll, ih, String.append_assoc]

end DataBind.Markup
