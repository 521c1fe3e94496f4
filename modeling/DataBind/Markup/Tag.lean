/-
**The known elements.**

Tag names are in lower case. Void elements have neither children nor an end tag; the content of a
raw text element is no markup. Unknown elements are like the ordinary ones.

* `not_isVoid_of_isRawText`: raw text elements have end tags.
-/

namespace DataBind.Markup

/-- What is known about an element. -/
structure TagInfo where
  name : String
  hasEndTag : Bool
  isRawText : Bool
  deriving DecidableEq, Repr

/-- The elements without content. -/
def voidTags : List String :=
  ["area", "base", "basefont", "br", "col", "command", "embed", "frame", "hr", "img", "input",
    "keygen", "link", "meta", "param", "source", "track", "wbr"]

/-- The elements whose content is kept as it is. -/
def rawTextTags : List String :=
  ["script", "style"]

/-- The elements that contain markup. -/
def ordinaryTags : List String :=
  ["a", "abbr", "address", "article", "aside", "audio", "b", "bdi", "bdo", "blockquote", "body",
    "button", "canvas", "caption", "cite", "code", "colgroup", "data", "datalist", "dd", "del",
    "details", "dfn", "dialog", "div", "dl", "dt", "em", "fieldset", "figcaption", "figure",
    "footer", "form", "h1", "h2", "h3", "h4", "h5", "h6", "head", "header", "hgroup", "html", "i",
    "iframe", "ins", "kbd", "label", "legend", "li", "main", "map", "mark", "menu", "meter", "nav",
    "noscript", "object", "ol", "optgroup", "option", "output", "p", "picture", "pre", "progress",
    "q", "rp", "rt", "ruby", "s", "samp", "section", "select", "slot", "small", "span", "strong",
    "sub", "summary", "sup", "table", "tbody", "td", "template", "textarea", "tfoot", "th",
    "thead", "time", "title", "tr", "u", "ul", "var", "video"]

/-- All known elements. -/
def knownTags : List TagInfo :=
  ordinaryTags.map (fun name => ⟨name, true, false⟩) ++
    voidTags.map (fun name => ⟨name, false, false⟩) ++
    rawTextTags.map (fun name => ⟨name, true, true⟩)

/-- What is known about an element of a name. -/
def tagInfo? (name : String) : Option TagInfo :=
  knownTags.find? fun info => info.name == name

/-- Whether an element has no content and no end tag. -/
def isVoid (name : String) : Bool :=
  voidTags.contains name

/-- Whether the content of an element is kept as it is. -/
def isRawText (name : String) : Bool :=
  rawTextTags.contains name

/-- Raw text elements have end tags. -/
theorem not_isVoid_of_isRawText {name : String} (raw : isRawText name = true) :
    isVoid name = false := by
  simp only [isRawText, rawTextTags, List.contains_eq_mem, List.mem_cons, List.not_mem_nil,
    or_false, decide_eq_true_eq] at raw
  rcases raw with rfl | rfl <;> decide

end DataBind.Markup
