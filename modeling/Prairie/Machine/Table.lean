/-
  Prairie.Machine.Table
  ─────────────────────
  **THE STEP TABLE.**

  A run that is watched step by step leaves one row per dispatched token: the
  number of the step, where the token stands, the head and the cell under it
  just before, the kind of token, and what the token did.  Rows are data;
  `Row.render` writes them out, `Table.lines` adds the heading.
-/
import Prairie.Machine.Context
import Prairie.Text.Column

namespace Prairie

/-! ## §1. Actions. -/

/-- What a dispatched token did. -/
inductive Action where
  /-- A comment does nothing. -/
  | comment
  /-- A word began to wait for its partner. -/
  | waited (w : Word)
  /-- A pair of words changed the cell at `index`. -/
  | incremented (index : Nat) (before after : UInt8)
  /-- A pair of words changed the cell at `index`. -/
  | decremented (index : Nat) (before after : UInt8)
  /-- A pair of words moved the head to `index`. -/
  | moved (index : Nat)
  /-- A byte was appended to the output. -/
  | output (byte : UInt8)
  /-- A loop was entered that tests the cell at `test`. -/
  | entered (test : Nat)
  /-- A loop was left because its cell is zero. -/
  | exited (test : Nat)
  /-- A loop was begun again, at token `start`. -/
  | repeated (test : Nat) (value : UInt8) (start : Nat)
  deriving Repr, DecidableEq

/-- The name of a word in the step table. -/
def Word.name : Word → String
  | upper => "Upper"
  | lower => "Lower"

/-- The text of an action. -/
def Action.describe : Action → String
  | comment => "Comment"
  | waited w => s!"Pending {w.name} word"
  | incremented index before after => s!"Increment cell[{index}] from {before} to {after}"
  | decremented index before after => s!"Decrement cell[{index}] from {before} to {after}"
  | moved index => s!"Moved pointer head to index {index}"
  | output byte => s!"Output byte {byte} (suppressed in debug)"
  | entered test => s!"Enter loop testing cell[{test}]"
  | exited test => s!"cell[{test}] is 0; exit loop"
  | repeated test value start => s!"cell[{test}] is {value}; repeat from IP {start}"

/-! ## §2. Rows. -/

/-- Where a run stands just before it dispatches a token. -/
structure Moment where
  /-- The number of tokens dispatched before. -/
  step : Nat
  /-- The position of the head. -/
  head : Nat
  /-- The cell under the head. -/
  cell : UInt8
  deriving Repr, DecidableEq

/-- Where a context stands. -/
def Context.moment (c : Context) : Moment := ⟨c.steps, c.tape.head, c.tape.current⟩

/-- One dispatched token in the step table. -/
structure Row where
  moment : Moment
  /-- The index of the token in the program. -/
  position : Nat
  token : Token
  action : Action
  deriving Repr, DecidableEq

/-- The line of a row. -/
def Row.render (r : Row) : String :=
  " | ".intercalate
    [Text.flushLeft 4 (toString r.moment.step), Text.flushLeft 3 (toString r.position),
     Text.flushLeft 3 (toString r.moment.head), Text.flushLeft 4 (toString r.moment.cell),
     Text.flushLeft 9 r.token.kindName, r.action.describe]

/-! ## §3. The whole table. -/

/-- The two lines above the rows. -/
def Table.heading : List String :=
  ["STEP | IP  | PTR | CELL | TOKEN     | ACTION",
   "-----+-----+-----+------+-----------+------------------------------------------------"]

/-- The lines of a step table. -/
def Table.lines (rows : List Row) : List String := Table.heading ++ rows.map Row.render

end Prairie
