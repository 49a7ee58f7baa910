/-
  Prairie.Proofs.Machine.Calls
  ────────────────────────────
  **FROM CALL TO CALL.**

  The evaluation of a program is a tree of calls, and at each of them a stack
  of frames is alive: the one called, and around it those that wait for it.
  `Setup.inspect` is the evaluation with a look at that stack before each
  call; it gives up at the first one that does not pass.

    • `Onward`        how a call leads to the next one,
    • `inspect_eq`    a property that every call hands to the next, and that
                      passes the test, makes the inspection go through:
                        inspect ok  =  some evaluate
    • `Stacked`       the frames alive lie one inside the other: loops around
                      loops, and around them all the program.
-/
import Prairie.Proofs.Machine.History

namespace Prairie

/-! ## §1. Calls under inspection. -/

/-- A frame and the position at which it stands. -/
structure Activation where
  frame : Frame
  position : Nat
  deriving Repr, DecidableEq

/-- Evaluate a frame as `Setup.evaluate` does, but put every call to the test
and give up at the first one that fails it.  The test is shown all frames that
are alive, innermost first: the one called where it goes on, and those around
it at the brackets where they wait. -/
def Setup.inspect (e : Setup) (ok : List Activation → Run → Prop)
    [∀ stack r, Decidable (ok stack r)] :
    Nat → List Activation → Frame → Nat → Run → Option (Outcome × Run)
  | 0, around, frame, position, r =>
      if ok (⟨frame, position⟩ :: around) r then some (.suspended position, r) else none
  | fuel + 1, around, frame, position, r =>
      if ok (⟨frame, position⟩ :: around) r then
        match e.program.token? position with
        | none => some (.returned e.program.size, r)
        | some token =>
            match e.refusal? r with
            | some fault => some (.failed fault, r)
            | none =>
                if e.allowance ≤ r.context.steps then some (.suspended position, r)
                else
                  match token with
                  | .comment _ =>
                      e.inspect ok fuel around frame (position + 1)
                        (e.dispatch position token (fun _ _ => .comment) id r)
                  | .literal (.word w) =>
                      e.inspect ok fuel around frame (position + 1)
                        (e.dispatch position token (Action.ofWord w) (Context.read w) r)
                  | .literal .output =>
                      e.inspect ok fuel around frame (position + 1)
                        (e.send
                          (e.dispatch position token (fun c _ => .output c.tape.current)
                            Context.emit r))
                  | .literal .loopBegin =>
                      match e.depthExceeded? frame.depth with
                      | some limit => some (r.fail (.loopDepthExceeded position limit))
                      | none =>
                          let r := e.dispatch position token (fun c _ => .entered c.tape.head) id r
                          let inner := ⟨position + 1, some r.context.tape.head, frame.depth + 1⟩
                          match e.inspect ok fuel (⟨frame, position⟩ :: around) inner
                              (position + 1) r with
                          | some (.returned stop, r) =>
                              e.inspect ok fuel around frame (stop + 1) r
                          | stopped => stopped
                  | .literal .loopEnd =>
                      match frame.test with
                      | none => some (r.fail (.unmatchedLoopEnd position))
                      | some test =>
                          if r.context.tape.cell test = 0 then
                            some (.returned position,
                              e.dispatch position token (fun _ _ => .exited test) id r)
                          else
                            e.inspect ok fuel around frame frame.start
                              (e.dispatch position token
                                (fun c _ => .repeated test (c.tape.cell test) frame.start) id r)
      else none

/-! ## §2. From one call to the next. -/

/-- The ways in which a call leads to the next one, told by the frames alive
and the run at both of them. -/
inductive Onward (e : Setup) : List Activation → Run → List Activation → Run → Prop where
  /-- A token that is no bracket: the frame goes on behind it. -/
  | stay {frame : Frame} {position : Nat} {around : List Activation} {r r' : Run}
      (token : Token) (token_eq : e.program.token? position = some token)
      (not_opens : ¬ e.program.Opens position) (not_closes : ¬ e.program.Closes position)
      (context_eq : r'.context = r.context.dispatch token) :
      Onward e (⟨frame, position⟩ :: around) r (⟨frame, position + 1⟩ :: around) r'
  /-- A loop is entered, and the frame waits for it at the bracket. -/
  | enter {frame : Frame} {position : Nat} {around : List Activation} {r r' : Run}
      (opens : e.program.Opens position) (allowed : e.depthExceeded? frame.depth = none)
      (context_eq : r'.context = r.context.dispatch (.literal .loopBegin)) :
      Onward e (⟨frame, position⟩ :: around) r
        (⟨⟨position + 1, some r.context.tape.head, frame.depth + 1⟩, position + 1⟩ ::
          ⟨frame, position⟩ :: around) r'
  /-- A loop begins again. -/
  | again {frame : Frame} {position : Nat} {around : List Activation} {r r' : Run}
      (test : Nat) (closes : e.program.Closes position) (test_eq : frame.test = some test)
      (cell_ne : r.context.tape.cell test ≠ 0)
      (context_eq : r'.context = r.context.dispatch (.literal .loopEnd)) :
      Onward e (⟨frame, position⟩ :: around) r (⟨frame, frame.start⟩ :: around) r'
  /-- A loop is left, and the frame that waited for it goes on behind it. -/
  | leave {inner frame : Frame} {stop position : Nat} {around : List Activation} {r r' : Run}
      (test : Nat) (closes : e.program.Closes stop) (test_eq : inner.test = some test)
      (cell_eq : r.context.tape.cell test = 0)
      (context_eq : r'.context = r.context.dispatch (.literal .loopEnd)) :
      Onward e (⟨inner, stop⟩ :: ⟨frame, position⟩ :: around) r
        (⟨frame, stop + 1⟩ :: around) r'
  /-- The program is over, and with the loop the frame around it. -/
  | fall {inner frame : Frame} {stop position : Nat} {around : List Activation} {r : Run}
      (at_end : e.program.token? stop = none) :
      Onward e (⟨inner, stop⟩ :: ⟨frame, position⟩ :: around) r
        (⟨frame, e.program.size + 1⟩ :: around) r

/-- What holds at a call holds at the next one. -/
def Keeps (e : Setup) (P : List Activation → Run → Prop) : Prop :=
  ∀ stack r stack' r', Onward e stack r stack' r' → P stack r → P stack' r'

/-- The inspection goes through; and where the frame returns, `P` holds of the
frame around it as it goes on. -/
structure Passes (P : List Activation → Run → Prop) (around : List Activation)
    (inspected : Option (Outcome × Run)) (o : Outcome × Run) : Prop where
  eq : inspected = some o
  resume : ∀ stop, o.1 = .returned stop →
    ∀ frame position rest, around = ⟨frame, position⟩ :: rest →
      P (⟨frame, stop + 1⟩ :: rest) o.2

section

variable {e : Setup} {P ok : List Activation → Run → Prop} [∀ stack r, Decidable (ok stack r)]
  {fuel position : Nat} {around : List Activation} {frame : Frame} {token : Token} {r : Run}

/-- A run that stops where it stands. -/
theorem Passes.of_stop {o : Outcome × Run} (h : ∀ stop, o.1 ≠ .returned stop) :
    Passes P around (some o) o :=
  ⟨rfl, fun stop hstop => absurd hstop (h stop)⟩

/-- A frame that waits goes on behind the one that it waited for. -/
theorem Passes.bind {inspected : Option (Outcome × Run)} {o : Outcome × Run}
    {rest : Nat → Run → Option (Outcome × Run)} {rest' : Nat → Run → Outcome × Run} :
    Passes P (⟨frame, position⟩ :: around) inspected o →
    (∀ stop r, P (⟨frame, stop + 1⟩ :: around) r → Passes P around (rest stop r) (rest' stop r)) →
    Passes P around
      (match inspected with
        | some (.returned stop, r) => rest stop r
        | stopped => stopped)
      (match o with
        | (.returned stop, r) => rest' stop r
        | stopped => stopped) := by
  rintro ⟨rfl, hresume⟩ hrest
  obtain ⟨outcome, r⟩ := o
  cases outcome with
  | returned stop => exact hrest stop r (hresume stop rfl frame position around rfl)
  | failed fault => exact .of_stop (by simp)
  | suspended next => exact .of_stop (by simp)

/-- With this much fuel, a call of which `P` holds passes the inspection. -/
def Upholds (e : Setup) (P ok : List Activation → Run → Prop)
    [∀ stack r, Decidable (ok stack r)] (fuel : Nat) : Prop :=
  ∀ (around : List Activation) (frame : Frame) (position : Nat) (r : Run),
    P (⟨frame, position⟩ :: around) r →
    Passes P around (e.inspect ok fuel around frame position r) (e.evaluate fuel frame position r)

/-- `P` holds of the call, which passes the test and is about to dispatch
`token`. -/
structure Ready (e : Setup) (P ok : List Activation → Run → Prop) (around : List Activation)
    (frame : Frame) (position : Nat) (r : Run) (token : Token) : Prop where
  holds : P (⟨frame, position⟩ :: around) r
  passes : ok (⟨frame, position⟩ :: around) r
  token_eq : e.program.token? position = some token
  allowed : e.refusal? r = none
  running : r.context.steps < e.allowance

namespace Ready

theorem passes_of_neither (h : Ready e P ok around frame position r token) (hkeep : Keeps e P)
    (ih : Upholds e P ok fuel) (ho : token ≠ .literal .loopBegin)
    (hc : token ≠ .literal .loopEnd) :
    Passes P around (e.inspect ok (fuel + 1) around frame position r)
      (e.evaluate (fuel + 1) frame position r) := by
  obtain ⟨hno, hnc⟩ := Program.neither_of_token? h.token_eq ho hc
  have hstay : ∀ r' : Run, r'.context = r.context.dispatch token →
      Passes P around (e.inspect ok fuel around frame (position + 1) r')
        (e.evaluate fuel frame (position + 1) r') := fun r' hctx =>
    ih around frame (position + 1) r'
      (hkeep _ _ _ _ (.stay token h.token_eq hno hnc hctx) h.holds)
  rw [Setup.inspect, if_pos h.passes, Setup.evaluate]
  simp only [h.token_eq, h.allowed, if_neg (Nat.not_le_of_lt h.running)]
  cases token with
  | comment text => exact hstay _ (Setup.context_dispatch ..)
  | literal l =>
      cases l with
      | word w => exact hstay _ (Setup.context_dispatch ..)
      | output =>
          refine hstay _ ?_
          rw [Setup.context_send, Setup.context_dispatch]
          rfl
      | loopBegin => exact absurd rfl ho
      | loopEnd => exact absurd rfl hc

/-- The loop is evaluated first, and the rest of the frame behind it. -/
theorem passes_of_opens (h : Ready e P ok around frame position r (.literal .loopBegin))
    (hkeep : Keeps e P) (ih : Upholds e P ok fuel) :
    Passes P around (e.inspect ok (fuel + 1) around frame position r)
      (e.evaluate (fuel + 1) frame position r) := by
  rw [Setup.inspect, if_pos h.passes, Setup.evaluate]
  simp only [h.token_eq, h.allowed, if_neg (Nat.not_le_of_lt h.running)]
  cases hd : e.depthExceeded? frame.depth with
  | some limit => exact .of_stop (by simp [Run.fail])
  | none =>
      have hctx := e.context_dispatch position (.literal .loopBegin)
        (fun c _ => .entered c.tape.head) id r
      -- The call of the loop comes first; where it returns, the frame is resumed.
      have hinner := hkeep _ _ _ _ (.enter h.token_eq hd hctx) h.holds
      simp only [hctx]
      exact (ih _ _ _ _ hinner).bind fun stop r' hrest => ih around frame (stop + 1) r' hrest

/-- A zero cell ends the frame, any other one repeats it. -/
theorem passes_of_closes (h : Ready e P ok around frame position r (.literal .loopEnd))
    (hkeep : Keeps e P) (ih : Upholds e P ok fuel) :
    Passes P around (e.inspect ok (fuel + 1) around frame position r)
      (e.evaluate (fuel + 1) frame position r) := by
  rw [Setup.inspect, if_pos h.passes, Setup.evaluate]
  simp only [h.token_eq, h.allowed, if_neg (Nat.not_le_of_lt h.running)]
  cases htest : frame.test with
  | none => exact .of_stop (by simp [Run.fail])
  | some test =>
      by_cases hz : r.context.tape.cell test = 0
      · simp only [if_pos hz]
        -- The next call, if there is one, is that of the frame around.
        refine ⟨rfl, fun stop hstop outer waits rest haround => ?_⟩
        injection hstop with hstop
        subst hstop haround
        exact hkeep _ _ _ _
          (.leave test h.token_eq htest hz (Setup.context_dispatch ..)) h.holds
      · simp only [if_neg hz]
        exact ih around frame frame.start _
          (hkeep _ _ _ _ (.again test h.token_eq htest hz (Setup.context_dispatch ..)) h.holds)

end Ready

/-- **What every call hands to the next holds at every call.** -/
theorem Keeps.upholds (hkeep : Keeps e P) (hok : ∀ stack r, P stack r → ok stack r)
    (fuel : Nat) : Upholds e P ok fuel := by
  -- One unit of fuel per call, as in the evaluation itself.
  induction fuel with
  | zero =>
      intro around frame position r h
      rw [Setup.inspect, if_pos (hok _ _ h), Setup.evaluate]
      exact .of_stop (by simp)
  | succ fuel ih =>
      intro around frame position r h
      cases ht : e.program.token? position with
      | none =>
          rw [Setup.inspect, if_pos (hok _ _ h), Setup.evaluate]
          simp only [ht]
          refine ⟨rfl, fun stop hstop outer waits rest haround => ?_⟩
          injection hstop with hstop
          subst hstop haround
          exact hkeep _ _ _ _ (.fall ht) h
      | some token =>
          cases hr : e.refusal? r with
          | some fault =>
              rw [Setup.inspect, if_pos (hok _ _ h), Setup.evaluate]
              simp only [ht, hr]
              exact .of_stop (by simp)
          | none =>
              by_cases hspent : e.allowance ≤ r.context.steps
              · rw [Setup.inspect, if_pos (hok _ _ h), Setup.evaluate]
                simp only [ht, hr, if_pos hspent]
                exact .of_stop (by simp)
              · have hready : Ready e P ok around frame position r token :=
                  ⟨h, hok _ _ h, ht, hr, Nat.lt_of_not_le hspent⟩
                by_cases ho : token = .literal .loopBegin
                · subst ho
                  exact hready.passes_of_opens hkeep ih
                · by_cases hc : token = .literal .loopEnd
                  · subst hc
                    exact hready.passes_of_closes hkeep ih
                  · exact hready.passes_of_neither hkeep ih ho hc

/-- **A test that follows from what every call hands to the next is passed by
them all.** -/
theorem Keeps.inspect_eq (hkeep : Keeps e P) (hok : ∀ stack r, P stack r → ok stack r)
    (fuel : Nat) (h : P (⟨frame, position⟩ :: around) r) :
    e.inspect ok fuel around frame position r = some (e.evaluate fuel frame position r) :=
  (hkeep.upholds hok fuel around frame position r h).eq

end

/-! ## §3. Frames one inside the other. -/

/-- The frames alive lie one inside the other: the outermost is the program
and tests no cell, and each of the others is a loop and one deeper than the
frame that waits for it. -/
inductive Stacked : List Activation → Prop where
  | program (position : Nat) : Stacked [⟨{}, position⟩]
  | loop {frame : Frame} {position : Nat} {around : List Activation} (start test inside : Nat)
      (outer : Stacked (⟨frame, position⟩ :: around)) :
      Stacked (⟨⟨start, some test, frame.depth + 1⟩, inside⟩ :: ⟨frame, position⟩ :: around)

namespace Stacked

variable {e : Setup} {frame inner : Frame} {position stop : Nat} {around : List Activation}

/-- Where the innermost frame stands makes no difference. -/
theorem move (h : Stacked (⟨frame, position⟩ :: around)) (position' : Nat) :
    Stacked (⟨frame, position'⟩ :: around) := by
  cases h with
  | program => exact .program position'
  | loop start test inside outer => exact .loop start test position' outer

theorem outer (h : Stacked (⟨inner, stop⟩ :: ⟨frame, position⟩ :: around)) :
    Stacked (⟨frame, position⟩ :: around) := by
  cases h with
  | loop start test inside outer => exact outer

theorem depth_eq (h : Stacked (⟨inner, stop⟩ :: ⟨frame, position⟩ :: around)) :
    inner.depth = frame.depth + 1 := by
  cases h with
  | loop start test inside outer => rfl

/-- **The frames alive always lie one inside the other.** -/
theorem onward {stack stack' : List Activation} {r r' : Run}
    (hon : Onward e stack r stack' r') (h : Stacked stack) : Stacked stack' := by
  cases hon with
  | stay => exact h.move _
  | enter => exact .loop _ _ _ h
  | again => exact h.move _
  | leave => exact h.outer.move _
  | fall => exact h.outer.move _

end Stacked

end Prairie
