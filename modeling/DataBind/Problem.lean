/-
**What can be wrong with a template.**

An error keeps a template from being compiled; a warning does not. A checked result carries the
warnings found on the way to it, whether it is a value or an error.

* `Checked.warnings_bind_ok`: the warnings of two steps follow each other;
* `Checked.bind_error`: after an error nothing more is found.
-/

import DataBind.Binding.TopLevel
import DataBind.Markup.Parse

namespace DataBind

/-- Why a template cannot be compiled. -/
inductive CompileError where
  | markup (error : Markup.MarkupError)
  | objectLiteral (binding : String) (error : Binding.LiteralError)
  | unclosedBlock (start : String)
  | unbalancedBlock (start : String)
  | conflictingBindings (first second : String)
  deriving DecidableEq, Repr

/-- The wording of an error. -/
def CompileError.message : CompileError → String
  | .markup error => "invalid markup: " ++ error.message
  | .objectLiteral binding error =>
    "invalid binding " ++ Text.quoted binding ++ ": " ++ error.message
  | .unclosedBlock start => "cannot find closing comment tag to match: " ++ Text.quoted start
  | .unbalancedBlock start =>
    "closing comment tag for " ++ Text.quoted start ++ " is not under the same parent"
  | .conflictingBindings first second =>
    "multiple bindings (" ++ first ++ " and " ++ second ++
      ") are trying to control descendant bindings of the same element; " ++
      "you cannot use these bindings together on the same element"

/-- What is odd about a template. -/
inductive Warning where
  /-- An end marker without a start marker. -/
  | danglingEnd (marker : String)
  /-- A binding given again on the same element. -/
  | duplicateBinding (tag kind : String)
  deriving DecidableEq, Repr

/-- The wording of a warning. -/
def Warning.message : Warning → String
  | .danglingEnd marker =>
    "ignoring closing comment tag " ++ Text.quoted marker ++ " without opening tag"
  | .duplicateBinding tag kind =>
    "ignoring repeated " ++ Text.quoted kind ++ " binding on <" ++ tag ++ "> element"

/-- A value or an error, with the warnings found before it. -/
structure Checked (α : Type) where
  warnings : List Warning
  result : Except CompileError α

namespace Checked

variable {α β : Type}

/-- An error, without warnings. -/
def fail (error : CompileError) : Checked α :=
  ⟨[], .error error⟩

/-- A warning. -/
def warn (warning : Warning) : Checked Unit :=
  ⟨[warning], .ok ()⟩

/-- A result without warnings. -/
def lift (result : Except CompileError α) : Checked α :=
  ⟨[], result⟩

instance : Monad Checked where
  pure value := ⟨[], .ok value⟩
  bind first next :=
    match first.result with
    | .error error => ⟨first.warnings, .error error⟩
    | .ok value =>
      let second := next value
      ⟨first.warnings ++ second.warnings, second.result⟩

instance : Inhabited (Checked α) := ⟨fail (.unclosedBlock "")⟩

/-- The warnings of two steps follow each other. -/
theorem warnings_bind_ok {first : Checked α} {value : α} (next : α → Checked β)
    (passed : first.result = .ok value) :
    (first >>= next).warnings = first.warnings ++ (next value).warnings := by
  simp [bind, passed]

/-- After an error nothing more is found. -/
theorem bind_error {first : Checked α} {error : CompileError} (next : α → Checked β)
    (failed : first.result = .error error) :
    first >>= next = ⟨first.warnings, .error error⟩ := by
  simp [bind, failed]

end Checked

end DataBind
