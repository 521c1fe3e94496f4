/-
**The arguments of the command line.**

Options start with dashes and may stand anywhere before a lone `--`; what is left are the paths of
a template and of its data. An option may be given once, under its full name.

* `read_nil`: without arguments the template is missing.
-/

import DataBind.Text.Search

namespace DataBind.CommandLine

/-- What a command line asks for. -/
structure Invocation where
  noConflict : Bool
  warnEval : Bool
  quiet : Bool
  config? : Option String
  template : String
  data? : Option String
  deriving DecidableEq, Repr

/-- What the arguments mean. -/
inductive Request where
  | run (invocation : Invocation)
  | help
  | misuse
  deriving DecidableEq, Repr

/-- The arguments read so far. -/
structure Arguments where
  noConflict : Bool := false
  warnEval : Bool := false
  quiet : Bool := false
  config? : Option String := none
  /-- The paths, in order. -/
  paths : List String := []

/-- The request of all arguments. -/
def Arguments.request (arguments : Arguments) : Request :=
  let run := fun template data? =>
    Request.run
      { noConflict := arguments.noConflict
        warnEval := arguments.warnEval
        quiet := arguments.quiet
        config? := arguments.config?
        template
        data? }
  match arguments.paths with
  | [template] => run template none
  | [template, data] => run template (some data)
  | _ => .misuse

/-- Whether an argument can be the value of an option. -/
def isValue (argument : String) : Bool :=
  match argument.toList with
  | '-' :: _ :: _ => false
  | _ => true

/-- Takes in the letters of an argument with one dash; nothing if one of them is no option, or if
an option is repeated. The flag tells whether help is asked for. -/
def addLetters (arguments : Arguments) : List Char → Option (Arguments × Bool)
  | [] => some (arguments, false)
  | 'h' :: _ => some (arguments, true)
  | 'q' :: rest =>
    if arguments.quiet then none else addLetters { arguments with quiet := true } rest
  | _ => none

/-- Takes in an option without a value. -/
def addFlag (arguments : Arguments) (name : List Char) : Option Arguments :=
  if name = "no-conflict".toList ∧ !arguments.noConflict then
    some { arguments with noConflict := true }
  else if name = "warn-eval".toList ∧ !arguments.warnEval then
    some { arguments with warnEval := true }
  else if name = "quiet".toList ∧ !arguments.quiet then some { arguments with quiet := true }
  else none

/-- Takes in the path of the options. -/
def addConfig (arguments : Arguments) (path : String) : Option Arguments :=
  if arguments.config?.isSome then none else some { arguments with config? := some path }

/-- Reads the arguments that are left. -/
def read (arguments : Arguments) : List String → Request
  | [] => arguments.request
  | argument :: rest =>
    match argument.toList with
    | ['-', '-'] => Arguments.request { arguments with paths := arguments.paths ++ rest }
    | '-' :: '-' :: name =>
      if name = "help".toList then .help
      else if name = "config".toList then
        match rest with
        | path :: rest =>
          if isValue path then
            match addConfig arguments path with
            | some arguments => read arguments rest
            | none => .misuse
          else .misuse
        | [] => .misuse
      else
        match Text.afterLead? "config=".toList name with
        | some path =>
          match addConfig arguments (String.ofList path) with
          | some arguments => read arguments rest
          | none => .misuse
        | none =>
          match addFlag arguments name with
          | some arguments => read arguments rest
          | none => .misuse
    | '-' :: letter :: letters =>
      match addLetters arguments (letter :: letters) with
      | some (_, true) => .help
      | some (arguments, false) => read arguments rest
      | none => .misuse
    | _ => read { arguments with paths := arguments.paths ++ [argument] } rest

/-- The request of the arguments of a command line. -/
def Request.ofArguments (arguments : List String) : Request :=
  read {} arguments

/-- Without arguments the template is missing. -/
theorem read_nil : Request.ofArguments [] = .misuse := rfl

end DataBind.CommandLine
