/-
**Options of compiling and rendering.**

* `bindingAttribute`: the attribute that holds the bindings of an element, by the options.
-/

namespace DataBind

/-- The options. -/
structure Config where
  /-- Use a binding attribute of another name, and leave `ko` comments alone. -/
  noConflict : Bool := false
  /-- Report expressions whose evaluation fails. -/
  warnEval : Bool := false
  deriving DecidableEq, Repr

/-- The name of the attribute that holds the bindings of an element. -/
def Config.bindingAttribute (config : Config) : String :=
  if config.noConflict then "data-htmlizer" else "data-bind"

end DataBind
