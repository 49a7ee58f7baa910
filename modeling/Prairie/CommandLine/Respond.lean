/-
  Prairie.CommandLine.Respond
  ───────────────────────────
  **RESPONDING TO A COMMAND.**

  What a command shows depends on its surroundings: the variables, the files,
  the input with whatever is submitted there, and the clock.  Given these, a
  command has one response.
-/
import Prairie.CommandLine.Command
import Prairie.CommandLine.Files
import Prairie.CommandLine.Listing
import Prairie.Console.Editor

namespace Prairie.CommandLine

/-- What a command finds around it. -/
structure Surroundings where
  environment : Environment
  files : Files
  /-- Everything on the input, if it is no terminal. -/
  input : ByteArray := .empty
  /-- Whether the input is a terminal. -/
  terminal : Bool := false
  /-- What is submitted at the terminal, one text after the other. -/
  submissions : List String := []
  /-- The clock: how many tokens a run within the limits may dispatch before its
  time is up. -/
  allowance : Limits → Nat := fun _ => Machine.patience

namespace Surroundings

/-- The settings in force. -/
def settings (s : Surroundings) (flags : Flags) : Settings :=
  .resolve flags s.environment
    (s.environment.settingsPath.bind fun path => (s.files.readText path).toOption)

/-- The mode of the console in these surroundings. -/
def mode (s : Surroundings) (flag : Option Console.Mode) : Except Console.ModeError Console.Mode :=
  Console.Mode.select flag (s.environment "BUFFALO_REPL_MODE") s.terminal

/-- How sources are executed under given flags. -/
def options (s : Surroundings) (flags : Flags) : Options :=
  let limits := Limits.resolve flags s.environment
  { settings := s.settings flags, limits, allowance := s.allowance limits }

/-- How the console executes sources. -/
def consoleOptions (s : Surroundings) : Options := s.options {}

/-- Whether an editor session ends behind the first program. -/
def once (s : Surroundings) : Bool := s.environment "BUFFALO_REPL_ONCE" == some "1"

end Surroundings

/-- Show how to use a command that was given neither a source nor a file. -/
def usageError (name : String) (topic : Topic) : Response := .complain (topic.usage name) 2

/-- Fetch a source and go on with its text. -/
def withSource (name : String) (topic : Topic) (source : SourceRef) (files : Files)
    (next : String → Response) : Response :=
  match source.file, source.parts with
  | none, [] => usageError name topic
  | none, parts => next (" ".intercalate parts)
  | some path, [] =>
      match files.readText path with
      | .ok text => next text
      | .error e =>
          .complain s!"{name}: failed to read source file as UTF-8: {e.message}\n" 1
  | some _, _ :: _ =>
      (Response.complain s!"{name}: cannot use positional code together with --file\n" 2).andThen
        (usageError name topic)

/-- Start the console. -/
def respondConsole (name : String) (flag : Option Console.Mode) (s : Surroundings) : Response :=
  match s.mode flag with
  | .error e => .complain s!"{name}: {e.message}\n" 1
  | .ok .bare => Console.runScript s.input s.consoleOptions
  | .ok .editor => Console.Editor.session {} s.once s.consoleOptions s.submissions

/-- The response to a command, under the name that the program was called by. -/
def respond (name : String) (s : Surroundings) : Command → Response
  | .help topic => .complain (topic.usage name) 0
  | .read traced dumped source flags =>
      withSource name .read source s.files fun text =>
        Console.execute (some name) text { s.options flags with traced, dumped }
  | .tokens source =>
      withSource name .tokens source s.files fun text =>
        .say (Listing.render (.ofSource text))
  | .console flag => respondConsole name flag s

end Prairie.CommandLine
