/-
  Prairie.Console.Mode
  ────────────────────
  **CONSOLE MODES.**

  The console works in one of two modes: bare, which reads all input as one
  script, and the editor, which needs a terminal.  A flag decides, then the
  mode variable, and otherwise whether the input is a terminal.
-/
import Prairie.Text.Blank

namespace Prairie.Console

/-- How the console takes its input. -/
inductive Mode where
  /-- The whole input is one script, run once. -/
  | bare
  /-- Programs are edited and submitted one after the other. -/
  | editor
  deriving Repr, DecidableEq

/-- Why no mode can be chosen. -/
inductive ModeError where
  /-- A flag asks for the editor and there is no terminal. -/
  | flagNeedsTerminal
  /-- The variable asks for the editor and there is no terminal. -/
  | variableNeedsTerminal
  /-- The variable holds something that is no mode. -/
  | unknown (value : String)
  deriving Repr, DecidableEq

/-- The message for a mode that cannot be chosen. -/
def ModeError.message : ModeError → String
  | flagNeedsTerminal =>
      "cannot start editor: stdin is not a TTY (use --bare or BUFFALO_REPL_MODE=bare)"
  | variableNeedsTerminal =>
      "cannot start editor: stdin is not a TTY (use BUFFALO_REPL_MODE=bare)"
  | unknown value =>
      s!"invalid BUFFALO_REPL_MODE value: {value}, must be 'bare' or 'editor'"

/-- The mode that a text names, in letters of any case and with blanks around
it. -/
def Mode.named? (value : String) : Option Mode :=
  match String.ofList ((Text.trim value.toList).map Char.toLower) with
  | "bare" => some .bare
  | "editor" => some .editor
  | _ => none

/-- Choose the mode from the flag, the wish that the variable holds, and
whether the input is a terminal. -/
def Mode.select (flag : Option Mode) (wish : Option String) (terminal : Bool) :
    Except ModeError Mode :=
  match flag, wish with
  | some .bare, _ => .ok .bare
  | some .editor, _ => if terminal then .ok .editor else .error .flagNeedsTerminal
  | none, none => .ok (if terminal then .editor else .bare)
  | none, some value =>
      match Mode.named? value with
      | some .bare => .ok .bare
      | some .editor => if terminal then .ok .editor else .error .variableNeedsTerminal
      | none => .error (.unknown value)

end Prairie.Console
