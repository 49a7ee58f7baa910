/-
  Prairie.Machine.Run
  ───────────────────
  **RUNNING A PROGRAM.**

  A program is run by frames.  The outermost frame dispatches tokens from the
  first on; an opening bracket starts a frame inside it, whose loop tests the
  cell that the head was on when it was entered.  At a closing bracket the
  innermost frame looks at its cell: zero ends the frame and the one around
  it goes on behind the bracket, anything else sends the frame back to its
  start.  A frame that runs off the end of the program is over as well.

      evaluate : fuel → frame → position → run → outcome × run

  A run cannot be known to end, so each one is given an ALLOWANCE of tokens
  it may dispatch.  When the allowance is spent the run is suspended; that is
  an outcome of its own and never mistaken for an end.  With an allowance of
  `k` the run is suspended exactly after its first `k` tokens, so the states
  of a run are the results of its suspensions.
-/
import Prairie.Machine.Table
import Prairie.Source.Program

namespace Prairie

/-! ## §1. What surrounds a run. -/

/-- The reins on a run: a limit on dispatched tokens and a flag that cancels
the run once it is raised. -/
structure Control where
  maxSteps : Option Nat := none
  /-- Whether the flag is up when the run begins. -/
  canceled : Bool := false
  deriving Repr, DecidableEq

/-- Someone who is handed each output byte, and who may raise the flag. -/
structure Listener where
  /-- The flag goes up when this many bytes have been handed over. -/
  cancelAfter : Option Nat := none
  deriving Repr, DecidableEq

/-- Everything about a run that stays the same from token to token. -/
structure Setup where
  program : Program
  maxLoopDepth : Option Nat := none
  /-- Whether the run keeps a step table in place of handing over its output. -/
  traced : Bool := false
  control : Option Control := none
  listener : Option Listener := none
  /-- How many tokens may be dispatched before the run is suspended. -/
  allowance : Nat

/-- Everything about a run that changes from token to token. -/
structure Run where
  context : Context
  /-- The bytes handed to the listener so far. -/
  sent : Array UInt8 := #[]
  /-- The step table so far. -/
  rows : Array Row := #[]
  /-- Whether the flag is up. -/
  canceled : Bool := false
  deriving Repr, DecidableEq

/-! ## §2. What a dispatched token does. -/

/-- Hand the cell under the head to a listener. -/
def Run.hand (listener : Listener) (r : Run) : Run :=
  let sent := r.sent.push r.context.tape.current
  { r with sent, canceled := r.canceled || listener.cancelAfter == some sent.size }

/-- What dispatching the word `w` did, told from the contexts before and
after. -/
def Action.ofWord (w : Word) (before after : Context) : Action :=
  match (Operation.accept before.pending w).2 with
  | none => .waited w
  | some .increment => .incremented after.tape.head before.tape.current after.tape.current
  | some .decrement => .decremented after.tape.head before.tape.current after.tape.current
  | some .advance | some .retreat => .moved after.tape.head

namespace Setup

/-- Dispatch a token: carry out its effect, count it, and enter it into the
step table if one is kept. -/
@[inline] def dispatch (e : Setup) (position : Nat) (token : Token)
    (action : Context → Context → Action) (effect : Context → Context) (r : Run) : Run :=
  if e.traced then
    let before := r.context
    let after := effect before
    let row := ⟨before.moment, position, token, action before after⟩
    { r with context := after.count, rows := r.rows.push row }
  else { r with context := (effect r.context).count }

/-- Hand the cell under the head to the listener, if there is one.  A traced
run keeps its bytes to itself. -/
@[inline] def send (e : Setup) (r : Run) : Run :=
  if e.traced then r
  else
    match e.listener with
    | none => r
    | some listener => r.hand listener

/-! ## §3. Leave to dispatch. -/

/-- Why the reins forbid the next token, if they do.  The flag is looked at
before the limit. -/
@[inline] def refusal? (e : Setup) (r : Run) : Option Fault :=
  match e.control with
  | none => none
  | some control =>
      if r.canceled then some .canceled
      else
        match control.maxSteps with
        | none => none
        | some limit => if limit ≤ r.context.steps then some (.stepLimitExceeded limit) else none

/-- Whether a loop may not be opened inside `depth` others, and the limit that
forbids it. -/
def depthExceeded? (e : Setup) (depth : Nat) : Option Nat :=
  e.maxLoopDepth.filter (· ≤ depth)

end Setup

/-! ## §4. Frames. -/

/-- The innermost loop being run, or the whole program. -/
structure Frame where
  /-- The token the frame starts from, and starts again from. -/
  start : Nat := 0
  /-- The cell its loop tests; the whole program is no loop and tests none. -/
  test : Option Nat := none
  /-- The number of loops around its tokens. -/
  depth : Nat := 0
  deriving Repr, DecidableEq

/-- How the evaluation of a frame came to a stop. -/
inductive Outcome where
  /-- The frame is over: at its closing bracket, or at the end of the program. -/
  | returned (stop : Nat)
  /-- A fault ended the run. -/
  | failed (fault : Fault)
  /-- The allowance is spent; the token at `next` is due. -/
  | suspended (next : Nat)
  deriving Repr, DecidableEq

/-- A run that ends with the token that is being dispatched, which is counted
and does nothing. -/
def Run.fail (fault : Fault) (r : Run) : Outcome × Run :=
  (.failed fault, { r with context := r.context.count })

/-- Evaluate a frame from a position on.  The fuel bounds the recursion only;
a run with allowance `k` needs no more than `k + 1`. -/
def Setup.evaluate (e : Setup) : Nat → Frame → Nat → Run → Outcome × Run
  | 0, _, position, r => (.suspended position, r)
  | fuel + 1, frame, position, r =>
      match e.program.token? position with
      | none => (.returned e.program.size, r)
      | some token =>
          match e.refusal? r with
          | some fault => (.failed fault, r)
          | none =>
              if e.allowance ≤ r.context.steps then (.suspended position, r)
              else
                match token with
                | .comment _ =>
                    e.evaluate fuel frame (position + 1)
                      (e.dispatch position token (fun _ _ => .comment) id r)
                | .literal (.word w) =>
                    e.evaluate fuel frame (position + 1)
                      (e.dispatch position token (Action.ofWord w) (Context.read w) r)
                | .literal .output =>
                    e.evaluate fuel frame (position + 1)
                      (e.send
                        (e.dispatch position token (fun c _ => .output c.tape.current)
                          Context.emit r))
                | .literal .loopBegin =>
                    match e.depthExceeded? frame.depth with
                    | some limit => r.fail (.loopDepthExceeded position limit)
                    | none =>
                        let r := e.dispatch position token (fun c _ => .entered c.tape.head) id r
                        let inner := ⟨position + 1, some r.context.tape.head, frame.depth + 1⟩
                        match e.evaluate fuel inner (position + 1) r with
                        | (.returned stop, r) => e.evaluate fuel frame (stop + 1) r
                        | stopped => stopped
                | .literal .loopEnd =>
                    match frame.test with
                    | none => r.fail (.unmatchedLoopEnd position)
                    | some test =>
                        if r.context.tape.cell test = 0 then
                          (.returned position,
                            e.dispatch position token (fun _ _ => .exited test) id r)
                        else
                          e.evaluate fuel frame frame.start
                            (e.dispatch position token
                              (fun c _ => .repeated test (c.tape.cell test) frame.start) id r)

/-! ## §5. Whole runs. -/

/-- How a run came to a stop. -/
inductive Ending where
  /-- The program is over. -/
  | finished
  /-- A fault ended the run. -/
  | failed (fault : Fault)
  /-- The allowance is spent and the program is not over. -/
  | suspended
  deriving Repr, DecidableEq

/-- The ending that the outcome of the outermost frame means. -/
def Outcome.ending : Outcome → Ending
  | returned _ => .finished
  | failed fault => .failed fault
  | suspended _ => .suspended

/-- Run a program from its first token in a given context. -/
def Setup.run (e : Setup) (context : Context) : Ending × Run :=
  let canceled := e.control.any Control.canceled
  let (outcome, r) := e.evaluate (e.allowance + 1) {} 0 { context, canceled }
  (outcome.ending, r)

end Prairie
