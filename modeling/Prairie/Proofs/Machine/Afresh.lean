/-
  Prairie.Proofs.Machine.Afresh
  ─────────────────────────────
  **EVERY RUN STARTS AFRESH.**

  A machine may be asked to run again and again, and each run may come to any
  end: over, at fault, out of steps, canceled, watched or not.  None of it is
  to be seen in the runs behind it.  Let `w₀` be the machine as it was made,
  before any run:

      the runs of w for q₁, q₂, …  =  the run of w₀ for q₁, that of w₀ for q₂, …

  So that this says something, the machine is also put on a RIG.  A rig keeps
  what it is asked for in registers: they are written when a run has got its
  tape, read at every token of the run, and only one of them is cleared behind
  it.  What the last request left there is written over before it is read, so
  a rig tells of its runs just what machines tell.
-/
import Prairie.Proofs.Machine.History

namespace Prairie

/-! ## §1. Runs one after the other. -/

namespace Machine

/-- The machine as it was made, before any run. -/
def renewed (w : Machine) : Machine := { w with context := {} }

/-- Ask for runs one after the other, each within an allowance of its own; what
is told of each, with the machine it leaves. -/
def performAll (w : Machine) : List (Request × Nat) → List (Account × Machine)
  | [] => []
  | (q, k) :: rest => w.perform q k :: performAll (w.perform q k).2 rest

/-- A run leaves everything but the context as it was made. -/
@[simp] theorem renewed_perform (w : Machine) (q : Request) (k : Nat) :
    (w.perform q k).2.renewed = w.renewed := by
  cases hc : Context.fresh w.settings.memorySize with
  | error fault => rw [perform_eq_of_error hc]
  | ok c =>
      rw [perform_eq_conclude hc]
      rfl

/-- A run that gets its tape does not look at what the last one left. -/
theorem perform_renewed {w : Machine} {c : Context}
    (hc : Context.fresh w.settings.memorySize = .ok c) (q : Request) (k : Nat) :
    w.perform q k = w.renewed.perform q k := by
  have hc' : Context.fresh w.renewed.settings.memorySize = .ok c := hc
  rw [perform_eq_conclude hc, perform_eq_conclude hc']
  rfl

end Machine

/-! ## §2. Rigs. -/

/-- A machine, and registers for what it is asked to do. -/
structure Rig where
  machine : Machine
  /-- Whether the run is to keep a step table. -/
  traced : Bool := false
  /-- The reins on the run. -/
  control : Option Control := none

namespace Rig

/-- What surrounds a run on the rig, as the registers have it. -/
def setup (g : Rig) (allowance : Nat) : Setup where
  program := g.machine.program
  maxLoopDepth := g.machine.settings.maxLoopDepth
  traced := g.traced
  control := g.control
  listener := g.machine.listener
  allowance := allowance

/-- Write a request to the registers and a context to the machine. -/
def load (g : Rig) (q : Request) (c : Context) : Rig where
  machine := { g.machine with context := c }
  traced := q.traced
  control := q.control

/-- Run the program as the registers have it, and clear the reins behind it.
The other register stays as it is. -/
def operate (g : Rig) (allowance : Nat) : Account × Rig :=
  let (ending, r) := (g.setup allowance).run g.machine.context
  ({ ending, sent := r.sent, table := if g.traced then some r.rows else none },
   { g with machine := { g.machine with context := r.context }, control := none })

/-- Run the program as requested.  Where the tape cannot be had nothing is
written. -/
def perform (g : Rig) (q : Request) (allowance : Nat) : Account × Rig :=
  match Context.fresh g.machine.settings.memorySize with
  | .error fault => ({ ending := .failed fault }, g)
  | .ok c => (g.load q c).operate allowance

/-- Ask for runs one after the other; what is told of each, with the machine it
leaves. -/
def performAll (g : Rig) : List (Request × Nat) → List (Account × Machine)
  | [] => []
  | (q, k) :: rest =>
      ((g.perform q k).1, (g.perform q k).2.machine) :: performAll (g.perform q k).2 rest

/-- **A rig tells what its machine tells**, whatever stands in its registers. -/
theorem perform_eq_machine (g : Rig) (q : Request) (k : Nat) :
    ((g.perform q k).1, (g.perform q k).2.machine) = g.machine.perform q k := by
  cases hc : Context.fresh g.machine.settings.memorySize with
  | error fault =>
      rw [Machine.perform_eq_of_error hc]
      unfold perform
      rw [hc]
  | ok c =>
      -- The registers are written over before they are read.
      have hsetup : (g.load q c).setup k = g.machine.setup q k := rfl
      unfold perform Machine.perform
      rw [hc]
      simp only [operate, hsetup]
      rfl

/-- So it is for any number of runs. -/
theorem performAll_eq_machine (g : Rig) (qs : List (Request × Nat)) :
    g.performAll qs = g.machine.performAll qs := by
  induction qs generalizing g with
  | nil => rfl
  | cons q rest ih =>
      have hfirst := g.perform_eq_machine q.1 q.2
      have hmachine : (g.perform q.1 q.2).2.machine = (g.machine.perform q.1 q.2).2 :=
        congrArg Prod.snd hfirst
      rw [performAll, Machine.performAll, hfirst, ih, hmachine]

end Rig

/-! ## §3. What a history leaves behind. -/

namespace Machine

/-- **Runs with a tape do not remember each other.** -/
theorem performAll_of_ok {w : Machine} {c : Context}
    (hc : Context.fresh w.settings.memorySize = .ok c) (qs : List (Request × Nat)) :
    w.performAll qs = qs.map fun q => w.renewed.perform q.1 q.2 := by
  induction qs generalizing w with
  | nil => rfl
  | cons q rest ih =>
      have hsettings : (w.perform q.1 q.2).2.settings = w.settings := by
        show (w.perform q.1 q.2).2.renewed.settings = w.renewed.settings
        rw [renewed_perform]
      rw [performAll, List.map_cons, ih (w := (w.perform q.1 q.2).2) (by rw [hsettings, hc]),
        renewed_perform, perform_renewed hc]

/-- **Without a tape nothing ever changes.** -/
theorem performAll_of_error {w : Machine} {fault : Fault}
    (hc : Context.fresh w.settings.memorySize = .error fault) (qs : List (Request × Nat)) :
    w.performAll qs
      = qs.map fun _ => ({ ending := .failed fault, sent := #[], table := none }, w) := by
  induction qs with
  | nil => rfl
  | cons q rest ih =>
      rw [performAll, perform_eq_of_error hc, List.map_cons, ih]

end Machine

/-- **EVERY RUN STARTS AFRESH.**  Take any machine, on a rig whose registers and
context hold anything at all, and ask it for any runs one after the other.  If
the tape can be had, each of them is told, with the same ending, bytes handed
over and step table, and leaves the machine, with the same output, tape, waiting
word and step count, as if it were the only run of the machine as it was made.
If the tape cannot be had, each of them fails for want of a tape of the size
asked for, hands nothing over and leaves no table, and the machine stays just as
it was.  The machine off its rig tells the same. -/
theorem runs_start_afresh (g : Rig) (qs : List (Request × Nat)) :
    (∀ c, Context.fresh g.machine.settings.memorySize = .ok c →
      g.performAll qs = qs.map fun q => g.machine.renewed.perform q.1 q.2) ∧
    (Tape.maxSize < max 1 g.machine.settings.memorySize →
      g.performAll qs = qs.map fun _ =>
        ({ ending := .failed (.tapeTooLarge (max 1 g.machine.settings.memorySize)),
           sent := #[], table := none }, g.machine)) ∧
    ((∃ c, Context.fresh g.machine.settings.memorySize = .ok c) ∨
      Tape.maxSize < max 1 g.machine.settings.memorySize) ∧
    g.machine.performAll qs = g.performAll qs := by
  rw [Rig.performAll_eq_machine]
  refine ⟨fun c hc => Machine.performAll_of_ok hc qs, fun hlt => ?_, ?_, rfl⟩
  · have hlt' : Tape.maxSize < Context.tapeLength g.machine.settings.memorySize := hlt
    refine Machine.performAll_of_error ?_ qs
    unfold Context.fresh
    simp only [if_pos hlt']
    rfl
  · cases hc : Context.fresh g.machine.settings.memorySize with
    | ok c => exact .inl ⟨c, rfl⟩
    | error fault =>
        refine .inr (Nat.lt_of_not_le fun hle => ?_)
        have hle' : ¬ Tape.maxSize < Context.tapeLength g.machine.settings.memorySize :=
          Nat.not_lt_of_le hle
        unfold Context.fresh at hc
        simp only [if_neg hle'] at hc
        cases hc

/-- A rig with registers and a context that no run has left there. -/
def staleRig : Rig where
  machine :=
    { program := .ofTokens [.literal (.word .upper), .literal (.word .upper), .literal .output,
        .literal .loopEnd]
      settings := { memorySize := 1 }
      listener := some { cancelAfter := some 1 }
      context := { tape := ⟨#[7], 0⟩, pending := some .lower, output := #[9], steps := 5 } }
  traced := true
  control := some { canceled := true }

/-- The same rig, asked for a tape that cannot be had. -/
def tapelessRig : Rig :=
  { staleRig with
    machine := { staleRig.machine with settings := { memorySize := Tape.maxSize + 1 } } }

theorem runs_start_afresh_staleRig :
    (staleRig.performAll [({ traced := true }, 9), ({ control := some { canceled := true } }, 9),
        ({ control := some { maxSteps := some 2 } }, 9), ({ control := some {} }, 9),
        ({}, 9)]).map (fun told => (told.1.ending, told.1.sent, told.2.context.output))
      = [(.failed (.unmatchedLoopEnd 3), #[], #[1]), (.failed .canceled, #[], #[]),
         (.failed (.stepLimitExceeded 2), #[], #[]), (.failed .canceled, #[1], #[1]),
         (.failed (.unmatchedLoopEnd 3), #[1], #[1])] ∧
    (tapelessRig.performAll [({ traced := true }, 9), ({}, 9)]).map
        (fun told => (told.1.ending, told.1.table, told.2.context.output))
      = [(.failed (.tapeTooLarge (Tape.maxSize + 1)), none, #[9]),
         (.failed (.tapeTooLarge (Tape.maxSize + 1)), none, #[9])] := by
  constructor
  · rw [(runs_start_afresh staleRig _).1 { tape := .zeroed 1 } rfl]
    decide
  · rw [(runs_start_afresh tapelessRig _).2.1 (by decide)]
    rfl

end Prairie
