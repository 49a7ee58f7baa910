/-
  Prairie.CommandLine.Command
  ───────────────────────────
  **COMMANDS.**

  The command line has three commands and one default:

      read     run a source given as operands or in a file
      tokens   list the tokens of such a source
      repl     start the console; the same as no command at all

  Arguments are either understood completely or not at all, and a request for
  help wins over everything that is understood with it.
-/
import Prairie.CommandLine.Arguments
import Prairie.CommandLine.Usage
import Prairie.Console.Mode
import Prairie.Settings.Resolve

namespace Prairie.CommandLine

/-! ## §1. What a command line asks for. -/

/-- Where a command finds its source. -/
structure SourceRef where
  /-- The path of a file. -/
  file : Option String := none
  /-- The parts of a source, to be joined with spaces. -/
  parts : List String := []
  deriving Repr, DecidableEq

/-- What a command line asks for. -/
inductive Command where
  /-- Show how to use the program or one of its commands. -/
  | help (topic : Topic)
  /-- Run a source. -/
  | read (traced dumped : Bool) (source : SourceRef) (flags : Flags)
  /-- List the tokens of a source. -/
  | tokens (source : SourceRef)
  /-- Start the console, in a mode if a flag says so. -/
  | console (mode : Option Console.Mode)
  deriving Repr, DecidableEq

namespace Command

/-- The path of the source that a command reads, if it reads a file. -/
def path? : Command → Option String
  | .read _ _ source _ | .tokens source => source.file
  | .help _ | .console _ => none

/-! ## §2. The flags of each command. -/

/-- The flag that asks for help. -/
def helpFlag : Flag := { long := "help", short := some 'h' }

/-- The flag that names a file. -/
def fileFlag : Flag := { long := "file", short := some 'f', takesValue := true }

/-- The flags of the command that runs a source. -/
def readFlags : List Flag :=
  [{ long := "debug", short := some 'd' }, { long := "dump" }, fileFlag,
   { long := "memory-size", takesValue := true }, { long := "max-loop-depth", takesValue := true },
   { long := "timeout", takesValue := true }, { long := "max-steps", takesValue := true },
   helpFlag]

/-- The flags of the command that lists tokens. -/
def tokensFlags : List Flag := [fileFlag, helpFlag]

/-- The flags of the console. -/
def consoleFlags : List Flag := [{ long := "bare" }, { long := "editor" }, helpFlag]

/-! ## §3. Reading a command line. -/

/-- The value of a flag that takes a numeral. -/
def numeralFlag (a : Arguments) (name : String) : Except UsageError (Option Nat) :=
  match a.value? name with
  | none => .ok none
  | some value =>
      match Text.readNumeral? value with
      | some n => .ok (some n)
      | none => .error (.invalidNumeral name value)

/-- Refuse operands. -/
def refuseOperands (a : Arguments) : Except UsageError Unit :=
  match a.operands with
  | [] => .ok ()
  | operand :: _ => .error (.unexpectedOperand operand)

/-- Where the arguments say that the source is. -/
def sourceOf (a : Arguments) : SourceRef := { file := a.value? "file", parts := a.operands }

/-- Read the arguments of the command that runs a source. -/
def parseRead (arguments : List String) : Except UsageError Command := do
  let a ← Arguments.read readFlags arguments
  let flags : Flags :=
    { memorySize := ← numeralFlag a "memory-size"
      maxLoopDepth := ← numeralFlag a "max-loop-depth"
      timeoutMs := ← numeralFlag a "timeout"
      maxSteps := ← numeralFlag a "max-steps" }
  return if a.has "help" then .help .read
    else .read (a.has "debug") (a.has "dump") (sourceOf a) flags

/-- Read the arguments of the command that lists tokens. -/
def parseTokens (arguments : List String) : Except UsageError Command := do
  let a ← Arguments.read tokensFlags arguments
  return if a.has "help" then .help .tokens else .tokens (sourceOf a)

/-- Read the arguments of the console. -/
def parseConsole (arguments : List String) : Except UsageError Command := do
  let a ← Arguments.read consoleFlags arguments
  refuseOperands a
  if a.has "bare" && a.has "editor" then throw (.conflict "bare" "editor")
  return if a.has "help" then .help .console
    else .console
      (if a.has "bare" then some .bare else if a.has "editor" then some .editor else none)

/-- Read the command that operands name, with its arguments. -/
def parseOperands : List String → Except UsageError Command
  | [] => .ok (.console none)
  | "read" :: arguments => parseRead arguments
  | "tokens" :: arguments => parseTokens arguments
  | "repl" :: arguments => parseConsole arguments
  | name :: _ => .error (.unknownCommand name)

/-- Read a whole command line. -/
def parse (arguments : List String) : Except UsageError Command := do
  let a ← Arguments.read [helpFlag] arguments
  if a.escaped then refuseOperands a
  let command ← parseOperands a.operands
  return if a.has "help" then .help .general else command

end Command

end Prairie.CommandLine
