/-
  Prairie.Settings.Basic
  ──────────────────────
  **SETTINGS AND LIMITS.**

  Settings shape the machine a program runs on; limits bound the run from
  outside.  The defaults are the values used when nobody says anything.
-/

namespace Prairie

/-- The shape of the machine a program runs on. -/
structure Settings where
  /-- The number of tape cells asked for. -/
  memorySize : Nat := 256
  /-- How deep loops may nest; nothing means without limit. -/
  maxLoopDepth : Option Nat := some 2500
  deriving Repr, DecidableEq

/-- The bounds put on a run from outside. -/
structure Limits where
  /-- How long the run may take, in milliseconds. -/
  timeoutMs : Nat := 2000
  /-- How many tokens it may dispatch; nothing means without limit. -/
  maxSteps : Option Nat := none
  deriving Repr, DecidableEq

end Prairie
