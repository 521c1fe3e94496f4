/-
**The scanners are total.**

Markup, expressions and object literals can all be read with a cursor that counts bytes. Read so,
they are read as from their characters: every loop comes to an end, every slice lies between valid
positions in order, and a loop over markup, attributes or tokens moves its cursor strictly forward
before it goes on.

* `Total`: what this says of a text;
* `scanners_total`: it holds of every text.
-/

import DataBind.Proofs.Cursor.Literals
import DataBind.Proofs.Cursor.Markup
import DataBind.Proofs.Cursor.Tokens

namespace DataBind.Cursor

open DataBind.Text DataBind.Binding Scanned

/-- **Every scanner comes to an end in a text**, with the result or the error of the text. So none
goes on forever, and none takes a slice that must not be taken, since those outcomes are no results
and no errors. -/
structure Total (text : String) : Prop where
  /-- The loop over the markup, with the fragment. -/
  markup : RunsTo Progress.cursor (markupStep text.toList) ⟨0, 0, .empty⟩ (Markup.parse text)
  /-- The loop over the attributes of a start tag, from every valid position on. -/
  attributes {front rest : List Char} (whole : text.toList = front ++ rest)
    (unended : Markup.MarkupError) (known : List Markup.Attribute) :
    RunsTo Prod.fst (tagStep text.toList unended) (byteLength front, known)
      (orError unended ((Markup.readTag known rest).map (placed text.toList)))
  /-- The loop over the tokens. -/
  tokens : RunsTo Prod.fst (tokenStep text.toList) (0, []) (Expr.tokenize text)
  /-- The search for separators outside of brackets and quotes. -/
  positions (separator : Char) :
    RunsTo Search.offset (positionsStep separator) ⟨0, text.toList, [], []⟩
      (topLevelPositions separator text.toList)
  /-- The slices between these separators. -/
  parts (separator : Char) :
    topLevelParts separator text.toList = ofExcept (splitTopLevel separator text.toList)
  /-- The slice inside of quotes. -/
  quotes : unquoted text.toList = (pure (unquote? text.toList) : Scanned LiteralError _)
  /-- The entries of an object literal. -/
  literal : objectLiteral text = ofExcept (parseObjectLiteral text)

/-- **The scanners are total** on every text. -/
theorem scanners_total (text : String) : Total text where
  markup := runsTo_parse text
  attributes {front rest} whole unended known := by
    have suffix : rest <:+ text.toList := ⟨front, whole.symm⟩
    have place : offsetOf text.toList rest = byteLength front := by
      rw [whole, offsetOf_append]
    rw [← place]
    exact runsTo_readTag suffix known
  tokens := runsTo_tokenize text
  positions separator := runsTo_topLevelPositions separator text.toList
  parts separator := topLevelParts_eq separator text.toList
  quotes := unquoted_eq text.toList
  literal := objectLiteral_eq text

end DataBind.Cursor
