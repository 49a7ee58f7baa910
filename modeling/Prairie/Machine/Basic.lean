/-
  Prairie.Machine.Basic
  ─────────────────────
  **MACHINES.**

  A machine holds one program and its settings and runs it as often as it is
  asked to.  Every run starts on a fresh tape; the context in which the last
  run stopped stays readable, whatever stopped it.  When the tape cannot be
  had there is no run, and the machine stays as it was.
-/
import Prairie.Machine.Run
import Prairie.Settings.Basic

namespace Prairie

/-- A program, the settings to run it with, and what the last run left. -/
structure Machine where
  program : Program
  settings : Settings := {}
  listener : Option Listener := none
  /-- The context of the last run; empty before the first one. -/
  context : Context := {}

/-- How a machine is asked to run its program. -/
structure Request where
  /-- Whether to keep a step table in place of handing over the output. -/
  traced : Bool := false
  control : Option Control := none
  deriving Repr, DecidableEq

/-- What a run tells whoever asked for it. -/
structure Account where
  ending : Ending
  /-- The bytes handed to the listener during the run. -/
  sent : Array UInt8 := #[]
  /-- The step table, if one was asked for and there was a tape. -/
  table : Option (Array Row) := none
  deriving Repr, DecidableEq

namespace Machine

/-- More dispatched tokens than anyone will wait for: the 62nd power of two. -/
def patience : Nat := 4611686018427387904

/-- What surrounds the run that a request asks for. -/
def setup (m : Machine) (request : Request) (allowance : Nat) : Setup where
  program := m.program
  maxLoopDepth := m.settings.maxLoopDepth
  traced := request.traced
  control := request.control
  listener := m.listener
  allowance := allowance

/-- Run the program as requested, within an allowance of dispatched tokens. -/
def perform (m : Machine) (request : Request) (allowance : Nat) : Account × Machine :=
  match Context.fresh m.settings.memorySize with
  | .error fault => ({ ending := .failed fault }, m)
  | .ok context =>
      let (ending, r) := (m.setup request allowance).run context
      ({ ending, sent := r.sent, table := if request.traced then some r.rows else none },
       { m with context := r.context })

end Machine

/-- Run a program on a tape of `memorySize` cells and give the context it ends
in, or the way in which it failed to end. -/
def interpret (program : Program) (memorySize : Nat) : Except Ending Context :=
  let machine : Machine := { program, settings := { memorySize } }
  match machine.perform {} Machine.patience with
  | ({ ending := .finished, .. }, after) => .ok after.context
  | (account, _) => .error account.ending

end Prairie
