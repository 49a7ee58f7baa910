/-
  Prairie.Main
  ────────────
  **THE PROGRAM.**

  Gathers the surroundings of a command, sets a clock, asks for the response
  and shows it.
  At a terminal the response is given submission by submission: a submission
  ends with the end of input, and an empty one ends the session.
-/
import Prairie.CommandLine.Clock
import Prairie.CommandLine.Respond

namespace Prairie.CommandLine

/-- The name that messages begin with. -/
def programName : String := "buffalo"

/-- The variables that are set. -/
def gatherEnvironment : IO Environment := do
  let values ← Environment.names.filterMapM fun name => do
    return (← IO.getEnv name).map fun value => (name, value)
  return fun name => values.lookup name

/-- What stands at a path. -/
def lookAt (path : String) : IO (Except ReadError ByteArray) := do
  try
    return .ok (← IO.FS.readBinFile path)
  catch
    | .inappropriateType _ code _ =>
        return .error (if code = 21 then .directory else .notDirectory)
    | .invalidArgument .. => return .error .nameTooLong
    | _ => return .error .missing

/-- Everything on the input. -/
partial def readInput (input : IO.FS.Stream) (before : ByteArray) : IO ByteArray := do
  let chunk ← input.read 65536
  if chunk.isEmpty then return before else readInput input (before ++ chunk)

/-- The lines typed at a terminal up to the next end of input. -/
partial def readSubmission (input : IO.FS.Stream) (before : String) : IO String := do
  let line ← input.getLine
  if line.isEmpty then return before else readSubmission input (before ++ line)

/-- Write out a response. -/
def showResponse (response : Response) : IO Unit := do
  let output ← IO.getStdout
  output.write response.output
  output.flush
  IO.eprint response.errors

/-- Hold an editor session at a terminal. -/
partial def editAt (input : IO.FS.Stream) (editor : Console.Editor) (once : Bool)
    (options : Options) : IO Unit := do
  IO.eprint "buffalo> "
  let text ← readSubmission input ""
  if text.isEmpty then
    showResponse (editor.session once options [])
  else
    let turn := editor.submit once options text
    showResponse turn.shown
    if turn.ended then return
    editAt input turn.editor once options

end Prairie.CommandLine

open Prairie CommandLine

/-- Respond to the arguments. -/
def main (arguments : List String) : IO UInt32 := do
  match Command.parse arguments with
  | .error e =>
      IO.eprintln s!"error: {e.message}"
      return 2
  | .ok command =>
      let environment ← gatherEnvironment
      let paths := environment.settingsPath.toList ++ command.path?.toList
      let found ← paths.mapM fun path => return (path, ← lookAt path)
      let files : Files := fun path => (found.lookup path).getD (.error .missing)
      let input ← IO.getStdin
      let terminal ← input.isTty
      let quiet : Surroundings :=
        { environment, files, terminal, allowance := Clock.allowance }
      match command, quiet.mode (match command with | .console flag => flag | _ => none) with
      | .console _, .ok .editor =>
          IO.eprintln "Buffalo REPL. Ctrl+D runs the buffer, :help lists commands, Ctrl+C quits."
          editAt input {} quiet.once quiet.consoleOptions
          return 0
      | .console _, .ok .bare =>
          let response := respond programName { quiet with input := ← readInput input .empty } command
          showResponse response
          return response.code.toUInt32
      | _, _ =>
          let response := respond programName quiet command
          showResponse response
          return response.code.toUInt32
