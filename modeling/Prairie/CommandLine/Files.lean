/-
  Prairie.CommandLine.Files
  ─────────────────────────
  **FILES.**

  What stands at a path is a file with its bytes, or there is a reason why
  nothing can be read.  A source has to be text, so bytes that are no valid
  UTF-8 are a reason too.
-/

namespace Prairie.CommandLine

/-- Why a file cannot be read as text. -/
inductive ReadError where
  /-- Nothing stands at the path. -/
  | missing
  /-- A directory stands at the path. -/
  | directory
  /-- The path leads through something that is no directory. -/
  | notDirectory
  /-- The path, or a name in it, is longer than any may be. -/
  | nameTooLong
  /-- The bytes are no valid UTF-8. -/
  | notText
  deriving Repr, DecidableEq

/-- The message for a file that cannot be read. -/
def ReadError.message : ReadError → String
  | missing => "No such file or directory (os error 2)"
  | directory => "Is a directory (os error 21)"
  | notDirectory => "Not a directory (os error 20)"
  | nameTooLong => "File name too long (os error 36)"
  | notText => "stream did not contain valid UTF-8"

/-- What stands at each path. -/
abbrev Files := String → Except ReadError ByteArray

/-- The text of the file at a path. -/
def Files.readText (files : Files) (path : String) : Except ReadError String :=
  match files path with
  | .error e => .error e
  | .ok bytes =>
      match String.fromUTF8? bytes with
      | some text => .ok text
      | none => .error .notText

end Prairie.CommandLine
