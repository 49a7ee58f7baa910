/-
  Prairie.Console.Editor
  ──────────────────────
  **EDITOR SESSIONS.**

  In the editor each submission is a whole program, run on a fresh tape as
  soon as it is submitted, or a meta command.  The session remembers the text
  of the last program it was given, for two of the commands to act on.
-/
import Prairie.Console.Script

namespace Prairie.Console

/-! ## §1. Meta commands in a session. -/

/-- What a session keeps between submissions: the last program it was given,
empty if there is none. -/
structure Editor where
  last : String := ""
  deriving Repr, DecidableEq

namespace Editor

/-- What one submission does to a session. -/
structure Turn where
  editor : Editor
  shown : Response := {}
  /-- Whether the session ends here. -/
  ended : Bool := false

/-- Carry out a meta command. -/
def obey (e : Editor) : Meta → Turn
  | .exit => { editor := e, ended := true }
  | .help => { editor := e, shown := { errors := Meta.helpText .editor } }
  | .reset => { editor := { e with last := "" } }
  | .dump => { editor := e, shown := if e.last.isEmpty then {} else .say (e.last ++ "\n") }

/-! ## §2. Submissions. -/

/-- Take one submission.  With `once` the session ends behind the first
program. -/
def submit (e : Editor) (once : Bool) (o : Options) (text : String) : Turn :=
  let text := Text.trimmed text
  if text.isEmpty then { editor := e }
  else
    match Meta.read? text.toList with
    | some command => e.obey command
    | none =>
        let note : Response := { errors := Meta.note text.toList }
        { editor := { e with last := text }
          shown := note.andThen (executeIfInstructed text o)
          ended := once }

/-- A whole session.  A session that does not end by itself ends with a line
feed when there are no more submissions; in either way it ends well. -/
def session (e : Editor) (once : Bool) (o : Options) : List String → Response
  | [] => .say "\n"
  | text :: texts =>
      let turn := e.submit once o text
      if turn.ended then { turn.shown with code := 0 }
      else turn.shown.andThen (session turn.editor once o texts)

end Editor

end Prairie.Console
