/-
  Prairie.Settings.File
  ─────────────────────
  **THE SETTINGS FILE.**

  A settings file is read line by line.  Blanks at the ends of a line do not
  count, blank lines and lines that begin with `#` are skipped, a line in
  square brackets is a heading, and below the heading `[interpreter]` a line
  `key = value` sets something:

      memory_size     = a numeral
      max_loop_depth  = a numeral, where 0 means no limit, or none

  A value may stand in one pair of double quotes.  Of several settings of the
  same key the last one with a valid value counts; a line that makes no sense
  has no effect.
-/
import Prairie.Settings.Basic
import Prairie.Text.Blank
import Prairie.Text.Cut
import Prairie.Text.Lines
import Prairie.Text.Numeral

namespace Prairie.Settings

/-! ## §1. Values. -/

/-- The limit that a number means: zero means that there is none. -/
def depthOf (n : Nat) : Option Nat := if n = 0 then none else some n

/-- The limit that a text means, if it is a valid one: a numeral, or `none` in
letters of any case.  Blanks around it do not count. -/
def depth? (text : List Char) : Option (Option Nat) :=
  let text := Text.trim text
  if text.map Char.toLower = "none".toList then some none
  else (Text.numeral? text).map depthOf

/-- A text without one pair of double quotes around it, if it has one. -/
def unquoted (text : List Char) : List Char :=
  match text with
  | '\x22' :: rest => if rest.getLast? = some '\x22' then rest.dropLast else text
  | _ => text

/-! ## §2. Lines. -/

/-- What a line of a settings file is. -/
inductive Line where
  /-- A blank line or a remark. -/
  | idle
  /-- A heading with its text between the brackets. -/
  | heading (title : List Char)
  /-- A key and its value, before and behind the first equals sign. -/
  | entry (key value : List Char)
  /-- A line that makes no sense. -/
  | junk
  deriving Repr, DecidableEq

/-- Read one line. -/
def Line.read (line : List Char) : Line :=
  match Text.trim line with
  | [] => .idle
  | '#' :: _ => .idle
  | '[' :: rest =>
      if rest.getLast? = some ']' then .heading rest.dropLast else entryOf ('[' :: rest)
  | text => entryOf text
where
  /-- An entry, if there is an equals sign. -/
  entryOf (text : List Char) : Line :=
    match Text.cutAt '=' text with
    | (_, none) => .junk
    | (key, some value) => .entry (Text.trim key) (unquoted (Text.trim value))

/-! ## §3. Files. -/

/-- The heading below which settings are read. -/
def section? (title : List Char) : Bool := title = "interpreter".toList

/-- The settings after a key has been given a value. -/
def set (s : Settings) (key value : List Char) : Settings :=
  if key = "memory_size".toList then
    { s with memorySize := (Text.numeral? value).getD s.memorySize }
  else if key = "max_loop_depth".toList then
    { s with maxLoopDepth := (depth? value).getD s.maxLoopDepth }
  else s

/-- Read a list of lines; `inside` tells whether they stand below the heading
of the settings. -/
def readLines (inside : Bool) (s : Settings) : List (List Char) → Settings
  | [] => s
  | line :: lines =>
      match Line.read line with
      | .heading title => readLines (section? title) s lines
      | .entry key value => readLines inside (if inside then s.set key value else s) lines
      | .idle | .junk => readLines inside s lines

/-- The settings that a settings file makes. -/
def ofFile (content : String) : Settings :=
  readLines false {} (Text.lines content.toList)

end Prairie.Settings
