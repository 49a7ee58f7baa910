/-
  Prairie.Proofs.Machine.Simulation
  ─────────────────────────────────
  **FRAMES INSIDE FRAMES ARE A STACK.**

  `Setup.evaluate` calls itself for every loop that is entered, goes back to
  the start of a frame to repeat it, and comes back from a frame with the
  position where it stopped.  The flat machine does none of that.  They agree
  token by token:

      evaluate (k + 1) {} 0 r  =  Flat.runFor k ⟨0, [], r⟩

  The simulation is per frame.  A frame FITS a stack when it tests the top of
  it, is as deep as it is high, and starts behind the bracket that stands open
  innermost.  Evaluating a frame that fits either stops the run where the
  flat machine stops, or returns at some `stop`, and then

      flat from ⟨position, tests⟩  =  flat from ⟨stop + 1, tests.tail⟩

  This one equation covers a loop that is closed (the flat machine popped) and
  a loop that never is: then `stop` is the end of the program, and both sides
  are over, whatever is on the stack.
-/
import Prairie.Proofs.Machine.Flat

namespace Prairie.Flat

variable {e : Setup} {s s' : Flat} {token : Token}

/-! ## §1. The flat machine under an allowance. -/

/-- Run the machine until the allowance is spent. -/
def runOn (e : Setup) (s : Flat) : Outcome × Run :=
  runFor e (e.allowance - s.run.context.steps) s

theorem runOn_of_end (ht : e.program.token? s.position = none) :
    runOn e s = (.returned e.program.size, s.run) :=
  runFor_of_end ht _

theorem runOn_of_refusal {fault : Fault} (ht : e.program.token? s.position = some token)
    (hr : e.refusal? s.run = some fault) : runOn e s = (.failed fault, s.run) :=
  runFor_of_refusal ht hr _

theorem runOn_of_spent (ht : e.program.token? s.position = some token)
    (hr : e.refusal? s.run = none) (ha : e.allowance ≤ s.run.context.steps) :
    runOn e s = (.suspended s.position, s.run) := by
  rw [runOn, Nat.sub_eq_zero_of_le ha]
  exact runFor_zero_of_allowed ht hr

theorem runOn_of_error {fault : Fault} (ht : e.program.token? s.position = some token)
    (hr : e.refusal? s.run = none) (ha : s.run.context.steps < e.allowance)
    (hs : s.step e token = .error fault) : runOn e s = s.run.fail fault := by
  obtain ⟨k, hk⟩ : ∃ k, e.allowance - s.run.context.steps = k + 1 :=
    ⟨e.allowance - s.run.context.steps - 1, by omega⟩
  rw [runOn, hk]
  exact runFor_succ_of_error ht hr hs k

theorem runOn_of_ok (ht : e.program.token? s.position = some token)
    (hr : e.refusal? s.run = none) (ha : s.run.context.steps < e.allowance)
    (hs : s.step e token = .ok s') : runOn e s = runOn e s' := by
  have hk : e.allowance - s.run.context.steps = e.allowance - s'.run.context.steps + 1 := by
    have := (step_ok ht hs).1
    omega
  rw [runOn, hk]
  exact runFor_succ_of_ok ht hr hs _

/-! ## §2. Frames that fit a stack. -/

/-- The frame is what the recursion is in while the flat machine has the stack
`tests`. -/
structure Fits (e : Setup) (frame : Frame) (tests : List Nat) : Prop where
  test_eq : frame.test = tests.head?
  depth_eq : frame.depth = tests.length
  start_eq : tests ≠ [] → ∃ o, frame.start = o + 1 ∧ e.program.Opens o

/-- The position lies directly in the frame: the same brackets stand open as
at its start.  Past the end of the program there is nothing to ask for. -/
def Within (e : Setup) (frame : Frame) (position : Nat) : Prop :=
  e.program.token? position = none ∨
    e.program.enclosing position = e.program.enclosing frame.start

/-- What the evaluation of a frame means for the flat machine at `s`. -/
inductive Agrees (e : Setup) (frame : Frame) (s : Flat) : Outcome × Run → Prop where
  /-- The frame is over, at its closing bracket or at the end of the program,
  and the flat machine goes on behind it with a lower stack. -/
  | returned (stop : Nat) (r : Run) (steps_le : s.run.context.steps ≤ r.context.steps)
      (stop_eq : stop = e.program.size ∨ (s.tests ≠ [] ∧ e.program.Closes stop ∧
        e.program.enclosing stop = e.program.enclosing frame.start))
      (onward : runOn e s = runOn e ⟨stop + 1, s.tests.tail, r⟩) :
      Agrees e frame s (.returned stop, r)
  /-- The run came to a stop inside the frame. -/
  | stopped (o : Outcome × Run) (not_returned : ∀ stop, o.1 ≠ .returned stop)
      (eq : runOn e s = o) : Agrees e frame s o

/-- A frame that goes on where the flat machine goes on agrees from there. -/
theorem Agrees.of_runOn_eq {frame : Frame} {o : Outcome × Run}
    (htests : s.tests = s'.tests) (hsteps : s.run.context.steps ≤ s'.run.context.steps)
    (hrun : runOn e s = runOn e s') (h : Agrees e frame s' o) : Agrees e frame s o := by
  cases h with
  | returned stop r steps_le stop_eq onward =>
      refine .returned stop r (Nat.le_trans hsteps steps_le) ?_ ?_
      · rw [htests]
        exact stop_eq
      · rw [hrun, htests]
        exact onward
  | stopped o not_returned eq => exact .stopped o not_returned (hrun.trans eq)

theorem token?_eq_none_iff {p : Program} {i : Nat} : p.token? i = none ↔ p.size ≤ i := by
  rw [p.token?_eq, List.getElem?_eq_none_iff, p.length_tokens]

theorem fits_inner {tests : List Nat} {position test : Nat}
    (ho : e.program.Opens position) :
    Fits e ⟨position + 1, some test, tests.length + 1⟩ (test :: tests) :=
  ⟨rfl, rfl, fun _ => ⟨position, rfl, ho⟩⟩

/-- The end of a loop entered at `position` lies in the frame around it. -/
theorem within_of_returned {frame : Frame} {tests : List Nat} {position stop test depth : Nat}
    (ho : e.program.Opens position)
    (hw : e.program.enclosing position = e.program.enclosing frame.start)
    (hstop : stop = e.program.size ∨ (tests ≠ [] ∧ e.program.Closes stop ∧
      e.program.enclosing stop = e.program.enclosing (Frame.start ⟨position + 1, test, depth⟩))) :
    Within e frame (stop + 1) := by
  rcases hstop with rfl | ⟨-, hc, henc⟩
  · exact .inl (token?_eq_none_iff.mpr (Nat.le_succ _))
  · refine .inr ?_
    rw [Program.enclosing_succ_of_closes hc, henc, Program.enclosing_succ_of_opens ho,
      List.tail_cons, hw]

/-- A frame that is repeated starts where the flat machine jumps to. -/
theorem opener?_of_fits {frame : Frame} {tests : List Nat} {position : Nat}
    (hf : Fits e frame tests) (hne : tests ≠ []) (hc : e.program.Closes position)
    (hw : e.program.enclosing position = e.program.enclosing frame.start) :
    (e.program.opener? position).getD 0 + 1 = frame.start := by
  obtain ⟨o, hstart, ho⟩ := hf.start_eq hne
  rw [hstart, Program.enclosing_succ_of_opens ho] at hw
  rw [Program.opener?_of_enclosing hc hw, hstart]
  rfl

/-! ## §3. The simulation, frame by frame. -/

/-- Evaluation goes on in the same frame where the flat machine goes on with
the same stack. -/
theorem Agrees.of_step {frame : Frame} {o : Outcome × Run}
    (ht : e.program.token? s.position = some token) (hr : e.refusal? s.run = none)
    (ha : s.run.context.steps < e.allowance) (hs : s.step e token = .ok s')
    (htests : s.tests = s'.tests) (h : Agrees e frame s' o) : Agrees e frame s o := by
  have hsteps := (step_ok ht hs).1
  exact h.of_runOn_eq htests (by omega) (runOn_of_ok ht hr ha hs)

/-- A loop is evaluated in a frame of its own, and then the frame around it
goes on. -/
theorem agrees_of_inner {frame inner : Frame} {o : Outcome × Run}
    {rest : Nat → Run → Outcome × Run} (hrun : runOn e s = runOn e s')
    (hsteps : s.run.context.steps ≤ s'.run.context.steps) (htail : s'.tests.tail = s.tests)
    (h : Agrees e inner s' o)
    (hrest : ∀ stop r, s'.run.context.steps ≤ r.context.steps →
      (stop = e.program.size ∨ (s'.tests ≠ [] ∧ e.program.Closes stop ∧
        e.program.enclosing stop = e.program.enclosing inner.start)) →
      Agrees e frame ⟨stop + 1, s.tests, r⟩ (rest stop r)) :
    Agrees e frame s
      (match o with
        | (.returned stop, r) => rest stop r
        | stopped => stopped) := by
  cases h with
  | returned stop r steps_le stop_eq onward =>
      show Agrees e frame s (rest stop r)
      refine Agrees.of_runOn_eq ?_ ?_ ?_ (hrest stop r steps_le stop_eq)
      · rfl
      · exact Nat.le_trans hsteps steps_le
      · rw [hrun, onward, htail]
  | stopped o not_returned eq =>
      obtain ⟨outcome, r⟩ := o
      cases outcome with
      | returned stop => exact absurd rfl (not_returned stop)
      | failed fault => exact .stopped _ not_returned (hrun.trans eq)
      | suspended next => exact .stopped _ not_returned (hrun.trans eq)

/-- With this much fuel, every frame that fits the stack does what the flat
machine does, unless the allowance outlasts the fuel. -/
def Simulates (e : Setup) (fuel : Nat) : Prop :=
  ∀ (frame : Frame) (s : Flat), Fits e frame s.tests → Within e frame s.position →
    e.allowance - s.run.context.steps < fuel →
    Agrees e frame s (e.evaluate fuel frame s.position s.run)

/-- The frame fits and is about to dispatch `token`. -/
structure Active (e : Setup) (fuel : Nat) (frame : Frame) (s : Flat) (token : Token) :
    Prop where
  fits : Fits e frame s.tests
  token_eq : e.program.token? s.position = some token
  allowed : e.refusal? s.run = none
  running : s.run.context.steps < e.allowance
  enclosing_eq : e.program.enclosing s.position = e.program.enclosing frame.start
  fuel_le : e.allowance - s.run.context.steps ≤ fuel

namespace Active

variable {fuel : Nat} {frame : Frame}

/-- A token that stays in the frame. -/
theorem stay (h : Active e fuel frame s token) (ih : Simulates e fuel)
    (hs : s.step e token = .ok s') (htests : s.tests = s'.tests)
    (hw : Within e frame s'.position) :
    Agrees e frame s (e.evaluate fuel frame s'.position s'.run) := by
  have hsteps := (step_ok h.token_eq hs).1
  have hrunning := h.running
  have hfuel := h.fuel_le
  have hrest := ih frame s' (htests ▸ h.fits) hw (by omega)
  exact hrest.of_step h.token_eq h.allowed h.running hs htests

theorem agrees_of_neither (h : Active e fuel frame s token) (ih : Simulates e fuel)
    (ho : token ≠ .literal .loopBegin) (hc : token ≠ .literal .loopEnd) :
    Agrees e frame s (e.evaluate (fuel + 1) frame s.position s.run) := by
  obtain ⟨hno, hnc⟩ := Program.neither_of_token? h.token_eq ho hc
  have hw : Within e frame (s.position + 1) := by
    refine .inr ?_
    rw [Program.enclosing_succ_of_neither hno hnc, h.enclosing_eq]
  rw [Setup.evaluate]
  simp only [h.token_eq, h.allowed, if_neg (Nat.not_le_of_lt h.running)]
  cases token with
  | comment text => exact h.stay ih rfl rfl hw
  | literal l =>
      cases l with
      | word w => exact h.stay ih rfl rfl hw
      | output => exact h.stay ih rfl rfl hw
      | loopBegin => exact absurd rfl ho
      | loopEnd => exact absurd rfl hc

/-- The loop is evaluated first, and the rest of the frame behind it. -/
theorem agrees_of_opens (h : Active e fuel frame s (.literal .loopBegin))
    (ih : Simulates e fuel) :
    Agrees e frame s (e.evaluate (fuel + 1) frame s.position s.run) := by
  rw [Setup.evaluate]
  simp only [h.token_eq, h.allowed, if_neg (Nat.not_le_of_lt h.running), h.fits.depth_eq]
  cases hd : e.depthExceeded? s.tests.length with
  | some limit =>
      exact .stopped _ (by simp [Run.fail])
        (runOn_of_error h.token_eq h.allowed h.running (step_tooDeep hd))
  | none =>
      have hs := step_enter hd
      have hsteps := (step_ok h.token_eq hs).1
      have hrun := runOn_of_ok h.token_eq h.allowed h.running hs
      have hrunning := h.running
      have hfuel := h.fuel_le
      rw [Setup.context_dispatch]
      refine agrees_of_inner hrun (by omega) rfl
        (ih _ ⟨_, _, _⟩ (fits_inner h.token_eq) (.inr rfl) (by omega)) ?_
      intro stop r hle hstop
      have hleft : e.allowance - r.context.steps < fuel := by omega
      exact ih frame ⟨stop + 1, s.tests, r⟩ h.fits
        (within_of_returned h.token_eq h.enclosing_eq hstop) hleft

/-- A zero cell ends the frame, any other one repeats it. -/
theorem agrees_of_closes (h : Active e fuel frame s (.literal .loopEnd))
    (ih : Simulates e fuel) :
    Agrees e frame s (e.evaluate (fuel + 1) frame s.position s.run) := by
  rw [Setup.evaluate]
  simp only [h.token_eq, h.allowed, if_neg (Nat.not_le_of_lt h.running), h.fits.test_eq]
  cases htests : s.tests with
  | nil =>
      exact .stopped _ (by simp [Run.fail])
        (runOn_of_error h.token_eq h.allowed h.running (step_unmatched e htests))
  | cons test tests =>
      have hne : s.tests ≠ [] := by simp [htests]
      rw [List.head?_cons]
      by_cases hz : s.run.context.tape.cell test = 0
      · simp only [if_pos hz]
        have hs := step_leave e htests hz
        refine .returned _ _ (by simp) (.inr ⟨hne, h.token_eq, h.enclosing_eq⟩) ?_
        rw [runOn_of_ok h.token_eq h.allowed h.running hs, htests, List.tail_cons]
      · simp only [if_neg hz]
        have hstart := opener?_of_fits h.fits hne h.token_eq h.enclosing_eq
        exact h.stay ih (step_again htests hz hstart) rfl (.inr rfl)

end Active

/-- **Evaluating a frame does what the flat machine does.** -/
theorem evaluate_agrees (e : Setup) (fuel : Nat) : Simulates e fuel := by
  -- Repeating a frame does not enter it anew, so the induction is on the fuel
  -- and not on the brackets; every token spends one unit of it.
  induction fuel with
  | zero =>
      intro frame s _ _ hfuel
      exact absurd hfuel (Nat.not_lt_zero _)
  | succ fuel ih =>
      intro frame s hf hw hfuel
      cases ht : e.program.token? s.position with
      | none =>
          rw [Setup.evaluate, ht]
          refine .returned _ _ (Nat.le_refl _) (.inl rfl) ?_
          rw [runOn_of_end ht, runOn_of_end]
          exact token?_eq_none_iff.mpr (Nat.le_succ _)
      | some token =>
          cases hr : e.refusal? s.run with
          | some fault =>
              rw [Setup.evaluate, ht]
              simp only [hr]
              exact .stopped _ (by simp) (runOn_of_refusal ht hr)
          | none =>
              by_cases hspent : e.allowance ≤ s.run.context.steps
              · rw [Setup.evaluate, ht]
                simp only [hr, if_pos hspent]
                exact .stopped _ (by simp) (runOn_of_spent ht hr hspent)
              · have henc : e.program.enclosing s.position = e.program.enclosing frame.start :=
                  hw.resolve_left (by rw [ht]; simp)
                have h : Active e fuel frame s token :=
                  ⟨hf, ht, hr, Nat.lt_of_not_le hspent, henc, Nat.le_of_lt_succ hfuel⟩
                by_cases ho : token = .literal .loopBegin
                · subst ho
                  exact h.agrees_of_opens ih
                · by_cases hc : token = .literal .loopEnd
                  · subst hc
                    exact h.agrees_of_closes ih
                  · exact h.agrees_of_neither ih ho hc

/-- The outermost frame agrees with the flat machine on an empty stack. -/
theorem evaluate_eq_runOn (e : Setup) (r : Run) :
    e.evaluate (e.allowance + 1) {} 0 r = runOn e { run := r } := by
  have hf : Fits e {} [] := ⟨rfl, rfl, fun h => absurd rfl h⟩
  have h : Agrees e {} { run := r } (e.evaluate (e.allowance + 1) {} 0 r) :=
    evaluate_agrees e _ {} { run := r } hf (.inr rfl) (Nat.lt_succ_of_le (Nat.sub_le _ _))
  generalize e.evaluate (e.allowance + 1) {} 0 r = o at h ⊢
  cases h with
  | returned stop r' steps_le stop_eq onward =>
      obtain rfl : stop = e.program.size := stop_eq.resolve_right fun h => h.1 rfl
      rw [onward, runOn_of_end]
      exact token?_eq_none_iff.mpr (Nat.le_succ _)
  | stopped o not_returned eq => exact eq.symm

/-! ## §4. Whole runs. -/

/-- A step does not look at the allowance. -/
theorem runFor_allowance (e : Setup) (a k : Nat) (s : Flat) :
    runFor { e with allowance := a } k s = runFor e k s := by
  induction k generalizing s with
  | zero =>
      rw [runFor, runFor]
      rfl
  | succ k ih =>
      rw [runFor, runFor]
      simp only [ih]
      rfl

/-- **A run of frames is a run of the flat machine**, however many tokens it
may dispatch. -/
theorem evaluate_eq_runFor (e : Setup) (r : Run) (k : Nat) :
    { e with allowance := r.context.steps + k }.evaluate (r.context.steps + k + 1) {} 0 r
      = runFor e k { run := r } := by
  rw [← runFor_allowance e (r.context.steps + k) k]
  have h := evaluate_eq_runOn { e with allowance := r.context.steps + k } r
  simp only [runOn, Nat.add_sub_cancel_left] at h
  exact h

end Prairie.Flat
