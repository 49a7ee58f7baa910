/-
  Prairie.Console.Execute
  ───────────────────────
  **EXECUTING A SOURCE.**

  To execute a source is to run its program within limits and to show what
  came of it:

      output    the bytes of the run (or its step table), then a line feed
      errors    the report of the fault, if there was one, then the state
                dump, if it was asked for
      code      0 if the program ran to its end, otherwise 1

  There is no clock in here.  Whoever watches one says how many tokens a run
  may dispatch before its time is up; a run that is not over by then is
  reported as out of time and never dumped, for nobody knows where it stands.
-/
import Prairie.Console.Response
import Prairie.Machine.Basic
import Prairie.Report.Diagnosis
import Prairie.Report.Dump
import Prairie.Source.Scanner

namespace Prairie

/-- How a source is to be executed. -/
structure Options where
  settings : Settings := {}
  limits : Limits := {}
  /-- Whether to show the step table in place of the output. -/
  traced : Bool := false
  /-- Whether to dump the final state. -/
  dumped : Bool := false
  /-- How many tokens the run may dispatch before its time is up. -/
  allowance : Nat := Machine.patience
  deriving Repr, DecidableEq

/-- What is said about a run that is out of time. -/
def Limits.timeoutMessage (l : Limits) : String :=
  s!"Execution aborted: wall-clock timeout exceeded ({l.timeoutMs} ms)\n"

namespace Console

/-- The run behind the execution of a program. -/
def account (program : Program) (o : Options) : Account × Machine :=
  let machine : Machine := { program, settings := o.settings, listener := some {} }
  machine.perform
    { traced := o.traced, control := some { maxSteps := o.limits.maxSteps } }
    o.allowance

/-- What a run writes to the output: its step table if it kept one, otherwise
the bytes it handed over. -/
def shownOutput (a : Account) : ByteArray :=
  match a.table with
  | some rows => (String.join ((Table.lines rows.toList).map (· ++ "\n"))).toUTF8
  | none => ⟨a.sent⟩

/-- What is said about the ending of a run. -/
def shownEnding (name : Option String) (source : String) (program : Program) (l : Limits) :
    Ending → String
  | .finished => ""
  | .failed .canceled | .suspended => l.timeoutMessage
  | .failed fault => Report.fault name source program fault

/-- Execute a source.  The name, if there is one, heads the report of a fault. -/
def execute (name : Option String) (source : String) (o : Options) : Response :=
  let program := Program.ofSource source
  let (a, machine) := account program o
  { code := if a.ending = .finished then 0 else 1
    output := shownOutput a ++ "\n".toUTF8
    errors :=
      shownEnding name source program o.limits a.ending ++
        if o.dumped && a.ending ≠ .suspended then Report.dump machine.context.tape else "" }

end Console

end Prairie
