/-
  Prairie.Machine.Fault
  ─────────────────────
  **WHAT CAN END A RUN EARLY.**

  A run ends early for one of five causes.  The first two name the token they
  arise at, the limits name the limit, and each has one message.
-/
import Prairie.Machine.Tape

namespace Prairie

/-- The causes that end a run before its program is over. -/
inductive Fault where
  /-- The closing bracket at token `index` stands in no loop. -/
  | unmatchedLoopEnd (index : Nat)
  /-- The opening bracket at token `index` nests loops deeper than `limit`. -/
  | loopDepthExceeded (index limit : Nat)
  /-- `limit` tokens have been dispatched and another one is due. -/
  | stepLimitExceeded (limit : Nat)
  /-- The run was told to stop. -/
  | canceled
  /-- A tape of `size` cells is more than a run may ask for. -/
  | tapeTooLarge (size : Nat)
  deriving Repr, DecidableEq

/-- The message for a fault. -/
def Fault.message : Fault → String
  | unmatchedLoopEnd index => s!"Unmatched loop end ')' at token {index}"
  | loopDepthExceeded index limit => s!"Loop nesting exceeds {limit} levels at token {index}"
  | stepLimitExceeded limit => s!"Execution aborted: step limit exceeded ({limit})"
  | canceled => "Execution aborted: cancelled"
  | tapeTooLarge size => s!"cannot allocate a tape of {size} cells (limit {Tape.maxSize})"

end Prairie
