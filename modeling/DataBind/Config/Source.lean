/-
**Where options come from.**

Options are read from two variables of the environment, or from a JSON document that names them.

* `parseBool?_empty`: an empty value means no;
* `ofEnvironment_empty`: without variables the options are the default ones.
-/

import DataBind.Config
import DataBind.Json.Basic
import DataBind.Text.Blank
import DataBind.Text.Quoted

namespace DataBind

/-- The value of a variable of the environment. -/
inductive Variable where
  | text (text : String)
  /-- A value that is no text. -/
  | undecodable

/-- Why options cannot be taken from the environment. -/
inductive VariableError where
  | notText (name : String)
  | notBoolean (name value : String)

namespace Config

/-- The truth value that a text stands for, apart from white space around it. -/
def parseBool? (text : String) : Option Bool :=
  let word := Text.trimmed text
  if word = "1" || word = "true" || word = "yes" || word = "on" then some true
  else if word = "0" || word = "false" || word = "no" || word = "off" || word = "" then some false
  else none

/-- The wording of the error of a text that stands for no truth value. -/
def notBooleanMessage (text : String) : String :=
  "not a boolean: " ++ Text.quoted text

/-- The truth value of a variable; nothing if it is not set. -/
def variableFlag (lookup : String → Option Variable) (name : String) :
    Except VariableError (Option Bool) :=
  match lookup name with
  | none => .ok none
  | some .undecodable => .error (.notText name)
  | some (.text text) =>
    match parseBool? text with
    | some flag => .ok (some flag)
    | none => .error (.notBoolean name text)

/-- The options that the environment gives. -/
def ofEnvironment (lookup : String → Option Variable) : Except VariableError Config := do
  let noConflict ← variableFlag lookup "HTMLIZER_NO_CONFLICT"
  let warnEval ← variableFlag lookup "HTMLIZER_WARN_EVAL"
  return ⟨noConflict.getD false, warnEval.getD false⟩

/-- The options with one of them set by its name in a document; nothing if there is none of that
name. -/
def setField? (name : String) (flag : Bool) (config : Config) : Option Config :=
  if name = "no_conflict" then some { config with noConflict := flag }
  else if name = "warn_eval_errors" then some { config with warnEval := flag }
  else none

/-- The options that the members of an object give; each may be given once. -/
def ofMembers? (seen : List String) (config : Config) :
    List (String × Json.Document) → Option Config
  | [] => some config
  | (name, .bool flag) :: rest =>
    if name ∈ seen then none
    else (setField? name flag config).bind fun config => ofMembers? (name :: seen) config rest
  | _ => none

/-- The options that a document gives: an object of them, or a list of at most two in order. -/
def ofDocument? : Json.Document → Option Config
  | .object members => ofMembers? [] {} members
  | .array [] => some {}
  | .array [.bool noConflict] => some { noConflict }
  | .array [.bool noConflict, .bool warnEval] => some { noConflict, warnEval }
  | _ => none

/-- An empty value means no. -/
theorem parseBool?_empty : parseBool? "" = some false := by decide

/-- Without variables the options are the default ones. -/
theorem ofEnvironment_empty {config : Config}
    (read : ofEnvironment (fun _ => none) = .ok config) : config = {} := by
  cases read
  rfl

end Config

/-- The wording of an error. -/
def VariableError.message : VariableError → String
  | .notText name => Text.quoted name ++ " env var is not unicode"
  | .notBoolean name value =>
    Text.quoted name ++ " env var: " ++ Config.notBooleanMessage value

end DataBind
