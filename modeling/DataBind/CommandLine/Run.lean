/-
**Running the command line.**

The options come from a file or from the environment, and flags add to them. Then the template is
read and compiled, the data is read, and the output is written. The first failure ends the run.

* `run_misuse`: a misused command line writes nothing and has the code 2.
-/

import DataBind.CommandLine.Arguments
import DataBind.Config.Source
import DataBind.Json.Parse
import DataBind.Template.Basic

namespace DataBind.CommandLine

/-- What a run can read. -/
structure Surroundings where
  /-- The text of a file; nothing if it cannot be read. -/
  file? : String → Option String
  environment : String → Option Variable
  /-- The text of the standard input; nothing if it cannot be read. -/
  input? : Option String

/-- What a run leaves behind. -/
structure Outcome where
  code : Nat
  output : String
  /-- The messages for the user that do not end the run. -/
  warnings : List String
  error? : Option String
  deriving DecidableEq, Repr

/-- Why a run fails. -/
inductive Failure where
  | readingConfig (path : String)
  | parsingConfig (path : String)
  | environment (error : VariableError)
  | reading (path : String)
  | compiling (path : String)
  | readingInput
  | parsingData (path : String)

/-- The wording of a failure. -/
def Failure.message : Failure → String
  | .readingConfig path => "reading config file " ++ Text.quoted path
  | .parsingConfig path => "parsing config file " ++ Text.quoted path
  | .environment error => error.message
  | .reading path => "reading " ++ Text.quoted path
  | .compiling path => "compiling " ++ Text.quoted path
  | .readingInput => "reading stdin"
  | .parsingData path => "parsing JSON from " ++ Text.quoted path

/-- The text of a file, or a failure. -/
def readFile (surroundings : Surroundings) (path : String) (failure : Failure) :
    Except Failure String :=
  match surroundings.file? path with
  | some text => .ok text
  | none => .error failure

/-- The options of a run without its flags. -/
def baseConfig (surroundings : Surroundings) : Option String → Except Failure Config
  | some path => do
    let text ← readFile surroundings path (.readingConfig path)
    match (Json.parse? text).bind Config.ofDocument? with
    | some config => return config
    | none => throw (.parsingConfig path)
  | none =>
    match Config.ofEnvironment surroundings.environment with
    | .ok config => .ok config
    | .error error => .error (.environment error)

/-- The options of a run. -/
def configOf (surroundings : Surroundings) (invocation : Invocation) :
    Except Failure Config := do
  let config ← baseConfig surroundings invocation.config?
  return ⟨config.noConflict || invocation.noConflict, config.warnEval || invocation.warnEval⟩

/-- The text of the data; a dash stands for the standard input. -/
def dataText (surroundings : Surroundings) (path : String) : Except Failure String :=
  if path = "-" then
    match surroundings.input? with
    | some text => .ok text
    | none => .error .readingInput
  else readFile surroundings path (.reading path)

/-- The data of a run; without a path it is null. -/
def dataOf (surroundings : Surroundings) : Option String → Except Failure Value
  | none => .ok .null
  | some path => do
    let text ← dataText surroundings path
    match (Json.parse? text).bind fun document => document.toValue? Json.Numeral.scaled? 0 with
    | some (data, _) => return data
    | none => throw (.parsingData path)

/-- The expression language of the command line, without host functions. -/
def evaluator : Evaluator :=
  .standard fun name _ _ => throw (.native (name ++ " is not available"))

/-- The end of a run that fails. -/
def failed (warnings : List String) (failure : Failure) : Outcome :=
  ⟨1, "", warnings, some failure.message⟩

/-- Runs an invocation. -/
def Invocation.run (invocation : Invocation) (surroundings : Surroundings) : Outcome :=
  let shown := fun warnings => if invocation.quiet then [] else warnings
  let prepared : Except Failure (Config × String) := do
    let config ← configOf surroundings invocation
    let markup ← readFile surroundings invocation.template (.reading invocation.template)
    return (config, markup)
  match prepared with
  | .error failure => failed [] failure
  | .ok (config, markup) =>
    let compiled := Template.ofMarkup evaluator config markup
    let warnings := compiled.warnings.map Warning.message
    match compiled.result with
    | .error _ => failed (shown warnings) (.compiling invocation.template)
    | .ok template =>
      match dataOf surroundings invocation.data? with
      | .error failure => failed (shown warnings) failure
      | .ok data =>
        let output := template.render data
        ⟨0, output.markup, shown (warnings ++ output.notices.map Template.Notice.message), none⟩

/-- What the command line is for. -/
def helpText : String :=
  "Render an HTML template with data-bind annotations against JSON data\n\n" ++
    "USAGE:\n    htmlizer [OPTIONS] <TEMPLATE> [DATA]\n\n" ++
    "OPTIONS:\n" ++
    "    --config <CONFIG>    Read the settings from this JSON file\n" ++
    "    --no-conflict        Use data-htmlizer attributes and hz comments only\n" ++
    "    --warn-eval          Report expressions that fail to evaluate\n" ++
    "    -q, --quiet          Print no warnings\n" ++
    "    -h, --help           Print this text\n"

/-- Runs a command line. -/
def run (arguments : List String) (surroundings : Surroundings) : Outcome :=
  match Request.ofArguments arguments with
  | .run invocation => invocation.run surroundings
  | .help => ⟨0, helpText, [], none⟩
  | .misuse => ⟨2, "", [], none⟩

/-- A misused command line writes nothing and has the code 2. -/
theorem run_misuse {arguments : List String} (surroundings : Surroundings)
    (misused : Request.ofArguments arguments = .misuse) :
    run arguments surroundings = ⟨2, "", [], none⟩ := by
  simp [run, misused]

end DataBind.CommandLine
