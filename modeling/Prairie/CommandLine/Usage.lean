/-
  Prairie.CommandLine.Usage
  ─────────────────────────
  **USAGE TEXTS.**

  Every command can show how it is used, under the name that the program was
  called by.  Each text ends in an empty line.
-/

namespace Prairie.CommandLine

/-- What a usage text is about. -/
inductive Topic where
  | general
  | read
  | tokens
  | console
  deriving Repr, DecidableEq

namespace Usage

/-- The usage of the whole command line. -/
def general (name : String) : List String :=
  ["Usage:",
   s!"  {name} read   [--debug|-d] [--dump] \"<code>\"       # Run Buffalo source (args are joined with spaces)",
   s!"  {name} read   [--debug|-d] [--dump] --file <PATH>  # Run Buffalo source loaded from file",
   s!"  {name} tokens \"<code>\" | --file <PATH>             # Print the token stream",
   s!"  {name} repl   [--bare|--editor]                    # Start a Buffalo REPL (read-eval-print loop)",
   s!"  {name}                                             # Same as `repl`",
   "",
   s!"Run \"{name} <subcommand> --help\" for more info.",
   ""]

/-- The usage of the command that runs a source. -/
def read (name : String) : List String :=
  ["Usage:",
   s!"  {name} read [--debug|-d] [--dump] \"<code>\"",
   s!"  {name} read [--debug|-d] [--dump] --file <PATH>",
   "",
   "Options:",
   "  --file,  -f <PATH>      Read Buffalo source from PATH instead of positional \"<code>\"",
   "  --debug, -d             Print a step-by-step table of operations instead of producing output",
   "  --dump                  Print the final pointer and non-zero cells to stderr",
   "  --memory-size <N>       Tape length in cells (default 256, at most 16777216)",
   "  --max-loop-depth <N>    Maximum loop nesting, 0 for unlimited (default 2500)",
   "  --timeout <MS>          Wall-clock timeout in milliseconds (default 2000)",
   "  --max-steps <N>         Abort after N tokens have been executed",
   "  --help,  -h             Show this help",
   "",
   "Notes:",
   "- `Buffalo Buffalo` increments the current cell, `buffalo buffalo` decrements it.",
   "- `buffalo Buffalo` moves right, `Buffalo buffalo` moves left.",
   "- `.` prints the current cell; `(` ... `)` repeats while the cell tested at `(` is non-zero.",
   "- Any other text is a comment. Text after the last recognised token is ignored.",
   "",
   "Examples:",
   "- Print byte 2:",
   s!"    {name} read \"Buffalo Buffalo Buffalo Buffalo.\"",
   "- Load a program from a file:",
   s!"    {name} read --file ./program.buf",
   ""]

/-- The usage of the command that lists tokens. -/
def tokens (name : String) : List String :=
  ["Usage:",
   s!"  {name} tokens \"<code>\"",
   s!"  {name} tokens --file <PATH>",
   "",
   "Options:",
   "  --file,  -f <PATH>  Read Buffalo source from PATH instead of positional \"<code>\"",
   "  --help,  -h         Show this help",
   "",
   "Description:",
   "  Prints the token stream one token per line: index, source byte range, token.",
   ""]

/-- The usage of the console. -/
def console (name : String) : List String :=
  ["Usage:",
   s!"  {name} repl [--bare|--editor]",
   s!"  {name}",
   "",
   "Options:",
   "  --bare        Read the whole of stdin as one program and run it once",
   "  --editor      Line editor with highlighting (stdin must be a TTY)",
   "  --help, -h    Show this help",
   "",
   "Without a flag, BUFFALO_REPL_MODE=bare|editor decides; otherwise the editor",
   "is used when stdin is a TTY.",
   "",
   "Editor mode:",
   "  Enter adds a line, Ctrl+D (Ctrl+Z on Windows) runs the buffer, Ctrl+C quits.",
   "  Each run gets a fresh tape; output is followed by a newline.",
   "  BUFFALO_REPL_ONCE=1 quits after the first run.",
   "",
   "Meta commands (a line holding only the command):",
   "  :exit     Quit (code 0)",
   "  :help     List meta commands",
   "  :reset    Bare: drop the source read so far. Editor: forget the last program",
   "  :dump     Bare: print the source read so far. Editor: print the last program",
   s!"Any other line starting with \":\" is program text, as in `{name} read`.",
   "",
   "Tape size, loop depth, timeout and step limit come from the BUFFALO_* variables",
   s!"and buffalo.toml, as for `{name} read`.",
   ""]

end Usage

/-- The lines of the usage text about a topic. -/
def Topic.lines (name : String) : Topic → List String
  | general => Usage.general name
  | read => Usage.read name
  | tokens => Usage.tokens name
  | console => Usage.console name

/-- The usage text about a topic. -/
def Topic.usage (name : String) (topic : Topic) : String :=
  String.join ((topic.lines name).map (· ++ "\n"))

end Prairie.CommandLine
