/-
  Prairie.Console.Script
  ──────────────────────
  **BARE SCRIPTS.**

  In bare mode the whole input is a script.  Its lines are read in order:
  a meta command is carried out at once, and every other line is added to the
  source.  What is left at the end of the input is executed, unless the
  script has ended itself.
-/
import Prairie.Console.Execute
import Prairie.Console.Meta
import Prairie.Text.Lines

namespace Prairie.Console

/-! ## §1. Reading a script. -/

/-- What has come of a script so far. -/
structure Script where
  /-- The source read and not dropped. -/
  source : String := ""
  /-- Whether the script has ended itself. -/
  exited : Bool := false
  /-- What was written to the output. -/
  output : String := ""
  /-- What was written to the error channel. -/
  notes : String := ""
  deriving Repr, DecidableEq

namespace Script

/-- Add a line to the source, with a note if it looks like a command. -/
def add (s : Script) (line : List Char) : Script :=
  { s with source := s.source ++ String.ofList line, notes := s.notes ++ Meta.note line }

/-- Carry out a meta command. -/
def obey (s : Script) : Meta → Script
  | .exit => { s with exited := true }
  | .help => { s with notes := s.notes ++ Meta.helpText .bare }
  | .reset => { s with source := "" }
  | .dump => { s with output := s.output ++ Text.trimmedEnd s.source ++ "\n" }

/-- Read one line.  A script that has ended itself reads no more. -/
def readLine (s : Script) (line : List Char) : Script :=
  if s.exited then s
  else
    match Meta.read? line with
    | none => s.add line
    | some command => s.obey command

/-- Read a whole input. -/
def read (input : String) : Script :=
  (Text.lines input.toList).foldl readLine {}

end Script

/-! ## §2. Running a script. -/

/-- The text of an input, if there is any: an empty input and one that is no
valid UTF-8 count as none. -/
def submission? (input : ByteArray) : Option String :=
  (String.fromUTF8? input).filter fun text => !text.isEmpty

/-- Execute a source without its blank ends, if there is an instruction in it. -/
def executeIfInstructed (source : String) (o : Options) : Response :=
  let source := Text.trimmed source
  if (Program.ofSource source).hasInstructions then execute none source o else {}

/-- Read an input as a script and run it once.  The exit code does not tell
how the run ended. -/
def runScript (input : ByteArray) (o : Options) : Response :=
  match submission? input with
  | none => {}
  | some text =>
      let script := Script.read text
      let before : Response :=
        { output := script.output.toUTF8, errors := script.notes }
      let run : Response := if script.exited then {} else executeIfInstructed script.source o
      { before.andThen run with code := 0 }

end Prairie.Console
