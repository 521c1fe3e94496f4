/-
**The command line program.**

It reads the files that its arguments name, runs, and writes what the run leaves behind: the output,
the warnings and the error, and the exit code.
-/

import DataBind.CommandLine.Run

namespace DataBind.CommandLine

/-- The paths of the files that a request reads. -/
def Request.paths : Request → List String
  | .run invocation =>
    invocation.config?.toList ++ invocation.template :: invocation.data?.toList.filter (· != "-")
  | _ => []

/-- Whether a request reads the standard input. -/
def Request.readsInput : Request → Bool
  | .run invocation => invocation.data? == some "-"
  | _ => false

/-- The text of a file; nothing if it cannot be read. -/
def fileText? (path : String) : IO (Option String) := do
  try
    return some (← IO.FS.readFile path)
  catch _ =>
    return none

/-- The text of the standard input; nothing if it cannot be read. -/
def inputText? : IO (Option String) := do
  try
    return some (← (← IO.getStdin).readToEnd)
  catch _ =>
    return none

/-- What a request can read. -/
def surroundingsOf (request : Request) : IO Surroundings := do
  let files ← request.paths.mapM fun path => do return (path, ← fileText? path)
  let names := ["HTMLIZER_NO_CONFLICT", "HTMLIZER_WARN_EVAL"]
  let settings ← names.mapM fun name => do return (name, (← IO.getEnv name).map Variable.text)
  let input? ← if request.readsInput then inputText? else pure (some "")
  return {
    file? := fun path => (files.lookup path).join
    environment := fun name => (settings.lookup name).join
    input? }

end DataBind.CommandLine

open DataBind.CommandLine in
/-- Runs the command line. -/
def main (arguments : List String) : IO UInt32 := do
  let surroundings ← surroundingsOf (Request.ofArguments arguments)
  let outcome := run arguments surroundings
  for warning in outcome.warnings do
    IO.eprintln ("W: " ++ warning)
  (← IO.getStdout).putStr outcome.output
  match outcome.error? with
  | some error => IO.eprintln ("Error: " ++ error)
  | none => pure ()
  if outcome.code = 2 then IO.eprintln "error: invalid arguments, try --help"
  return outcome.code.toUInt32
