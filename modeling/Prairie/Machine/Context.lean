/-
  Prairie.Machine.Context
  ───────────────────────
  **THE STATE OF A RUN.**

  A run owns a tape, a word that may be waiting for its partner, the bytes
  output so far and the number of tokens dispatched so far.  Every run starts
  with a fresh context; the context of the last run stays readable.
-/
import Prairie.Machine.Fault

namespace Prairie

/-- Everything that one run owns. -/
structure Context where
  tape : Tape := {}
  /-- The word that waits for its partner, if one does. -/
  pending : Option Word := none
  /-- The bytes output so far. -/
  output : Array UInt8 := #[]
  /-- The number of tokens dispatched so far. -/
  steps : Nat := 0
  deriving Repr, DecidableEq

namespace Context

/-- The length of the tape that a memory size stands for: a tape has at least
one cell. -/
def tapeLength (memorySize : Nat) : Nat := max 1 memorySize

/-- The context a run starts with, or the fault that the tape would be too
large. -/
def fresh (memorySize : Nat) : Except Fault Context :=
  let size := tapeLength memorySize
  if Tape.maxSize < size then .error (.tapeTooLarge size)
  else .ok { tape := .zeroed size }

/-- Count one more dispatched token. -/
def count (c : Context) : Context := { c with steps := c.steps + 1 }

/-- Carry out an operation on the tape. -/
def apply (op : Operation) (c : Context) : Context := { c with tape := c.tape.apply op }

/-- Read a word: keep it waiting, or carry out the operation that it
completes. -/
def read (w : Word) (c : Context) : Context :=
  match Operation.accept c.pending w with
  | (pending, none) => { c with pending }
  | (pending, some op) => { c.apply op with pending }

/-- Append the cell under the head to the output. -/
def emit (c : Context) : Context := { c with output := c.output.push c.tape.current }

/-- The output with each byte read as the character of that code. -/
def outputText (c : Context) : String :=
  String.ofList (c.output.toList.map fun byte => Char.ofNat byte.toNat)

end Context

end Prairie
