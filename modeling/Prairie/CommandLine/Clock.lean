/-
  Prairie.CommandLine.Clock
  ─────────────────────────
  **THE CLOCK.**

  Time is counted in dispatched tokens.  How many of them fit into a
  millisecond nobody can say, but some surely fit, and no more than some fit
  at best.  A run is given the tokens that surely fit, and if a step limit
  promises an end among those that fit at best, it is given that many.
-/
import Prairie.Machine.Basic

namespace Prairie.CommandLine.Clock

/-- The number of tokens that surely fit into a millisecond. -/
def sureTokensPerMs : Nat := 60000

/-- The number of tokens that fit into a millisecond at best. -/
def bestTokensPerMs : Nat := 150000

/-- The number of tokens that a run within the limits may dispatch before its
time is up. -/
def allowance (l : Limits) : Nat :=
  let sure := min (l.timeoutMs * sureTokensPerMs) Machine.patience
  match l.maxSteps with
  | some limit => if limit ≤ l.timeoutMs * bestTokensPerMs then max sure limit else sure
  | none => sure

end Prairie.CommandLine.Clock
