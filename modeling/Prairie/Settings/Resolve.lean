/-
  Prairie.Settings.Resolve
  ────────────────────────
  **WHERE SETTINGS COME FROM.**

  Each setting is looked for in a fixed order of places, and the first place
  with a valid value decides:

      a flag, then a variable, then the settings file, then the default

  An invalid value is as good as none.  The limits on a run are not read from
  the settings file.
-/
import Prairie.Settings.File

namespace Prairie

/-- The environment variables, by name. -/
abbrev Environment := String → Option String

/-- The settings and limits given on the command line. -/
structure Flags where
  memorySize : Option Nat := none
  /-- Zero means no limit. -/
  maxLoopDepth : Option Nat := none
  timeoutMs : Option Nat := none
  maxSteps : Option Nat := none
  deriving Repr, DecidableEq

namespace Environment

/-- The names of all variables that are ever looked at. -/
def names : List String :=
  ["HOME", "XDG_CONFIG_HOME", "BUFFALO_MEMORY_SIZE", "BUFFALO_MAX_LOOP_DEPTH",
   "BUFFALO_TIMEOUT_MS", "BUFFALO_MAX_STEPS", "BUFFALO_REPL_MODE", "BUFFALO_REPL_ONCE"]

/-- The numeral that a variable holds; blanks around it do not count. -/
def numeral? (env : Environment) (name : String) : Option Nat :=
  (env name).bind fun value => Text.numeral? (Text.trim value.toList)

/-- The path of the settings file: in the directory of settings if a variable
names one, otherwise in the usual place below the home directory.  A home
directory without a name is none. -/
def settingsPath (env : Environment) : Option String :=
  match env "XDG_CONFIG_HOME" with
  | some directory => some (join directory "buffalo.toml")
  | none =>
      ((env "HOME").filter fun home => !home.isEmpty).map fun home =>
        join (join home ".config") "buffalo.toml"
where
  /-- A name below a directory; the empty path is the current directory. -/
  join (directory name : String) : String :=
    if directory.isEmpty || directory.endsWith "/" then directory ++ name
    else directory ++ "/" ++ name

end Environment

/-- The settings in force; `file` is the content of the settings file, if it
can be read. -/
def Settings.resolve (flags : Flags) (env : Environment) (file : Option String) : Settings :=
  let base := (file.map ofFile).getD {}
  { memorySize :=
      (flags.memorySize <|> env.numeral? "BUFFALO_MEMORY_SIZE").getD base.memorySize
    maxLoopDepth :=
      (flags.maxLoopDepth.map depthOf <|>
        (env "BUFFALO_MAX_LOOP_DEPTH").bind fun value => depth? value.toList).getD
        base.maxLoopDepth }

/-- The limits in force. -/
def Limits.resolve (flags : Flags) (env : Environment) : Limits :=
  let base : Limits := {}
  { timeoutMs := (flags.timeoutMs <|> env.numeral? "BUFFALO_TIMEOUT_MS").getD base.timeoutMs
    maxSteps := flags.maxSteps <|> env.numeral? "BUFFALO_MAX_STEPS" }

end Prairie
