/-
  Prairie.Console.Meta
  ────────────────────
  **META COMMANDS.**

  A line that holds only a colon and one of five words is a command to the
  console and no part of a program.  A line that looks like a command and is
  none draws a note; it stays part of the program like every other line.
-/
import Prairie.Console.Mode
import Prairie.Text.Blank

namespace Prairie.Console

/-! ## §1. Recognising commands. -/

/-- A command to the console. -/
inductive Meta where
  /-- End the session. -/
  | exit
  /-- List the commands. -/
  | help
  /-- Forget the program. -/
  | reset
  /-- Show the program. -/
  | dump
  deriving Repr, DecidableEq

namespace Meta

/-- The command that a word names. -/
def named? (word : String) : Option Meta :=
  match word with
  | "exit" | "quit" => some exit
  | "help" => some help
  | "reset" => some reset
  | "dump" => some dump
  | _ => none

/-- The text behind the colon of a line that begins with one, blanks at the
ends of the line apart. -/
def afterColon? (line : List Char) : Option (List Char) :=
  match Text.trim line with
  | ':' :: rest => some rest
  | _ => none

/-- The command on a line, if there is one. -/
def read? (line : List Char) : Option Meta :=
  (afterColon? line).bind fun rest => named? (String.ofList (Text.trim rest))

/-- Whether a character may stand in a word that looks like a command: an
ASCII letter or digit, a hyphen or an underscore. -/
def isWordChar (c : Char) : Bool := c.isAlphanum || c = '-' || c = '_'

/-- The word of a line that looks like a command and is none. -/
def misspelled? (line : List Char) : Option (List Char) :=
  (afterColon? line).filter fun word =>
    !word.isEmpty && word.all isWordChar && (read? line).isNone

/-! ## §2. What is said about commands. -/

/-- The note about a line that looks like a command and is none. -/
def note (line : List Char) : String :=
  match misspelled? line with
  | none => ""
  | some word =>
      s!"note: :{String.ofList word} is not a meta command; kept as program text (try :help)\n"

/-- The list of commands.  Two of them mean something else in each mode. -/
def helpText (mode : Mode) : String :=
  let (onReset, onDump) := match mode with
    | .bare => ("Drop the source read so far", "Print the source read so far to stdout")
    | .editor => ("Forget the last executed program", "Print the last executed program to stdout")
  "Meta commands (a line holding only the command)\n" ++
  "  :exit            Exit immediately (code 0)\n" ++
  "  :help            Show this help\n" ++
  "  :reset           " ++ onReset ++ "\n" ++
  "  :dump            " ++ onDump ++ "\n" ++
  "Other lines starting with \":\" are program text.\n"

end Meta

end Prairie.Console
