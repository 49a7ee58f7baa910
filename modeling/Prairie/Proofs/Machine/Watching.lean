/-
  Prairie.Proofs.Machine.Watching
  ───────────────────────────────
  **WATCHING A RUN DOES NOT CHANGE IT.**

  A run is watched in one of two ways.  A traced run keeps a step table and
  its bytes to itself; any other run hands each byte to its listener, if it
  has one.  Neither the table nor the bytes handed over are looked at by the
  run, so two runs of the same task stay ALIKE: they stand at the same
  position, with the same stack and in the same context, for as long as their
  flags agree.

    • `step_alike`, `runFor_alike`  one token, and a whole run,
    • `sent_runFor_of_traced`       a traced run hands nothing over,
    • `sent_runFor_of_listener`     any other one hands over its output.
-/
import Prairie.Proofs.Machine.History

namespace Prairie

/-! ## §1. The same task. -/

/-- Two setups ask for the same run.  They may differ in who watches it, and
in how much of it is to be seen. -/
structure Setup.SameTask (e e' : Setup) : Prop where
  program_eq : e'.program = e.program
  depth_eq : e'.maxLoopDepth = e.maxLoopDepth
  control_eq : e'.control = e.control

namespace Flat

/-- Two states that differ at most in what is kept for those who watch. -/
structure Alike (s t : Flat) : Prop where
  position_eq : t.position = s.position
  tests_eq : t.tests = s.tests
  context_eq : t.run.context = s.run.context

variable {e e' : Setup} {s t : Flat} {token : Token} {k : Nat}

/-- **One token keeps two runs alike**, or fails in both with one fault. -/
theorem step_alike (he : e.SameTask e') (h : Alike s t) (token : Token) :
    (∃ fault, s.step e token = .error fault ∧ t.step e' token = .error fault) ∨
    (∃ s' t', s.step e token = .ok s' ∧ t.step e' token = .ok t' ∧ Alike s' t') := by
  obtain ⟨hp, ht, hc⟩ := h
  have hnext : t.position + 1 = s.position + 1 := by rw [hp]
  cases token with
  | comment text => exact .inr ⟨_, _, rfl, rfl, hnext, ht, by simp [hc]⟩
  | literal l =>
      cases l with
      | word w => exact .inr ⟨_, _, rfl, rfl, hnext, ht, by simp [hc]⟩
      | output => exact .inr ⟨_, _, rfl, rfl, hnext, ht, by simp [hc]⟩
      | loopBegin =>
          have hd : e'.depthExceeded? t.tests.length = e.depthExceeded? s.tests.length := by
            rw [ht, Setup.depthExceeded?, Setup.depthExceeded?, he.depth_eq]
          cases hs : e.depthExceeded? s.tests.length with
          | some limit =>
              refine .inl ⟨_, step_tooDeep hs, ?_⟩
              rw [step_tooDeep (hd.trans hs), hp]
          | none =>
              refine .inr ⟨_, _, step_enter hs, step_enter (hd.trans hs), hnext, ?_, by simp [hc]⟩
              rw [ht, hc]
      | loopEnd =>
          cases hs : s.tests with
          | nil =>
              refine .inl ⟨_, step_unmatched e hs, ?_⟩
              rw [step_unmatched e' (ht.trans hs), hp]
          | cons test tests =>
              by_cases hz : s.run.context.tape.cell test = 0
              · refine .inr ⟨_, _, step_leave e hs hz, step_leave e' (ht.trans hs) ?_, hnext, rfl,
                  by simp [hc]⟩
                rw [hc, hz]
              · have hz' : t.run.context.tape.cell test ≠ 0 := by rw [hc]; exact hz
                have hstart : (e'.program.opener? t.position).getD 0 + 1
                    = (e.program.opener? s.position).getD 0 + 1 := by rw [he.program_eq, hp]
                exact .inr ⟨_, _, step_again hs hz rfl, step_again (ht.trans hs) hz' hstart, rfl,
                  ht, by simp [hc]⟩

/-- The flags of two runs agree, or there is nobody to look at them. -/
def FlagsAgree (e : Setup) (s : Flat) (e' : Setup) (t : Flat) : Prop :=
  e.control = none ∨ ∀ i, (runFor e' i t).2.canceled = (runFor e i s).2.canceled

theorem refusal?_alike (he : e.SameTask e') (h : Alike s t) (hflag : FlagsAgree e s e' t) :
    e'.refusal? t.run = e.refusal? s.run := by
  rcases hflag with hfree | hflag
  · rw [Setup.refusal?, Setup.refusal?, he.control_eq, hfree]
  · have h0 := hflag 0
    rw [run_runFor_zero, run_runFor_zero] at h0
    rw [Setup.refusal?, Setup.refusal?, he.control_eq, h0, h.context_eq]

/-- Two runs whose flags agree have flags that agree behind the first token. -/
theorem FlagsAgree.next {s' t' : Flat} (h : FlagsAgree e s e' t)
    (hs : ∀ i, runFor e (i + 1) s = runFor e i s')
    (ht : ∀ i, runFor e' (i + 1) t = runFor e' i t') :
    FlagsAgree e s' e' t' := by
  refine h.imp id fun hflag i => ?_
  rw [← hs, ← ht]
  exact hflag (i + 1)

/-- **Two runs of the same task stay alike**: they come to the same stop in the
same context. -/
theorem runFor_alike (he : e.SameTask e') (h : Alike s t) (hflag : FlagsAgree e s e' t) (k : Nat) :
    (runFor e' k t).1 = (runFor e k s).1 ∧
    (runFor e' k t).2.context = (runFor e k s).2.context := by
  induction k generalizing s t with
  | zero =>
      rw [run_runFor_zero, run_runFor_zero]
      refine ⟨?_, h.context_eq⟩
      have htoken : e'.program.token? t.position = e.program.token? s.position := by
        rw [he.program_eq, h.position_eq]
      rw [runFor, runFor, htoken, refusal?_alike he h hflag, he.program_eq, h.position_eq]
      split
      · rfl
      · split <;> rfl
  | succ k ih =>
      have hp : e'.program = e.program := he.program_eq
      have hr := refusal?_alike he h hflag
      cases ht : e.program.token? s.position with
      | none =>
          have ht' : e'.program.token? t.position = none := by rw [hp, h.position_eq, ht]
          rw [runFor_of_end ht, runFor_of_end ht', hp]
          exact ⟨rfl, h.context_eq⟩
      | some token =>
          have ht' : e'.program.token? t.position = some token := by rw [hp, h.position_eq, ht]
          cases hs : e.refusal? s.run with
          | some fault =>
              rw [runFor_of_refusal ht hs, runFor_of_refusal ht' (hr.trans hs)]
              exact ⟨rfl, h.context_eq⟩
          | none =>
              have hs' := hr.trans hs
              rcases step_alike he h token with ⟨fault, hstep, hstep'⟩ | ⟨u, u', hstep, hstep', hu⟩
              · rw [runFor_succ_of_error ht hs hstep, runFor_succ_of_error ht' hs' hstep']
                exact ⟨rfl, congrArg Context.count h.context_eq⟩
              · have hnext := runFor_succ_of_ok ht hs hstep
                have hnext' := runFor_succ_of_ok ht' hs' hstep'
                rw [hnext, hnext']
                exact ih hu (hflag.next hnext hnext')

end Flat

/-- Runs of frames on the same task come to the same stop in the same context. -/
theorem Setup.standing_alike {e e' : Setup} {c : Context} (he : e.SameTask e')
    (hc : c.steps = 0)
    (hflag : e.control = none ∨ ∀ i, (e'.standing c i).2.canceled = (e.standing c i).2.canceled)
    (k : Nat) :
    (e'.standing c k).1 = (e.standing c k).1 ∧
    (e'.standing c k).2.context = (e.standing c k).2.context := by
  have hbegin : Flat.Alike (Flat.begin e c) (Flat.begin e' c) := ⟨rfl, rfl, rfl⟩
  have hagree : Flat.FlagsAgree e (Flat.begin e c) e' (Flat.begin e' c) := by
    refine hflag.imp id fun h i => ?_
    rw [← standing_eq_runFor hc, ← standing_eq_runFor hc]
    exact h i
  rw [standing_eq_runFor hc, standing_eq_runFor hc]
  exact Flat.runFor_alike he hbegin hagree k

/-! ## §2. The bytes handed over. -/

namespace Setup

variable {e : Setup} {r : Run}

@[simp] theorem sent_dispatch (e : Setup) (position : Nat) (token : Token)
    (action : Context → Context → Action) (effect : Context → Context) (r : Run) :
    (e.dispatch position token action effect r).sent = r.sent := by
  unfold dispatch
  split <;> rfl

/-- A traced run keeps its bytes to itself. -/
theorem sent_send_of_traced (h : e.traced = true) (r : Run) : (e.send r).sent = r.sent := by
  rw [send, if_pos h]

/-- Any other run hands its listener the cell under the head. -/
theorem sent_send_of_listener {l : Listener} (h : e.traced = false) (hl : e.listener = some l)
    (r : Run) : (e.send r).sent = r.sent.push r.context.tape.current := by
  rw [send, h, hl]
  rfl

end Setup

namespace Flat

variable {e : Setup} {s : Flat}

theorem sent_runFor_of_traced (h : e.traced = true) (k : Nat) (s : Flat) :
    (runFor e k s).2.sent = s.run.sent := by
  refine runFor_induction (P := fun r => r.sent = s.run.sent) rfl ?_ (fun r hr => hr) k
  intro t t' ht hn
  obtain ⟨token, -, hs⟩ := next?_eq_some_iff.mp hn
  rcases step_run hs with ⟨-, action, hr⟩ | ⟨-, action, hr⟩
  · rw [hr, Setup.sent_dispatch, ht]
  · rw [hr, Setup.sent_send_of_traced h, Setup.sent_dispatch, ht]

/-- **What is handed over is what is output**, byte for byte. -/
theorem sent_runFor_of_listener {l : Listener} (h : e.traced = false) (hl : e.listener = some l)
    (h0 : s.run.sent = s.run.context.output) (k : Nat) :
    (runFor e k s).2.sent = (runFor e k s).2.context.output := by
  refine runFor_induction (P := fun r => r.sent = r.context.output) h0 ?_ (fun r hr => hr) k
  intro t t' ht hn
  obtain ⟨token, -, hs⟩ := next?_eq_some_iff.mp hn
  rcases step_run hs with ⟨hne, action, hr⟩ | ⟨rfl, action, hr⟩
  · rw [context_step hs, Context.output_dispatch_of_ne hne, hr, Setup.sent_dispatch, ht]
  · rw [context_step hs, hr, Setup.sent_send_of_listener h hl, Setup.sent_dispatch,
      Setup.context_dispatch, ht]
    rfl

end Flat

/-! ## §3. Machines that have been used. -/

/-- A machine as it comes to be: made new, given a listener, asked to run. -/
inductive Machine.Used : Machine → Prop where
  | new (program : Program) (settings : Settings) : Used { program, settings }
  | listen {w : Machine} (l : Listener) (used : Used w) : Used { w with listener := some l }
  | perform {w : Machine} (q : Request) (k : Nat) (used : Used w) : Used (w.perform q k).2

namespace Machine

/-- Where the tape cannot be had there never was a run. -/
theorem Used.context_eq {w : Machine} (h : w.Used) {fault : Fault}
    (hf : Context.fresh w.settings.memorySize = .error fault) : w.context = {} := by
  induction h with
  | new program settings => rfl
  | listen l used ih => exact ih hf
  | @perform w q k used ih =>
      cases hc : Context.fresh w.settings.memorySize with
      | error fault' =>
          rw [perform_eq_of_error hc] at hf ⊢
          exact ih hf
      | ok c =>
          rw [perform_eq_conclude hc] at hf
          have hf' : Context.fresh w.settings.memorySize = .error fault := hf
          rw [hc] at hf'
          cases hf'

/-- **A traced run is told as the untraced one**, the bytes handed over and the
step table apart. -/
theorem perform_traced_alike (w : Machine) (control : Option Control)
    (hflag : ∀ reins, control = some reins → ∀ c, Context.fresh w.settings.memorySize = .ok c →
      ∀ k, ((w.setup { control } k).run c).2.canceled = reins.canceled) (k : Nat) :
    (w.perform { traced := true, control } k).1.ending = (w.perform { control } k).1.ending ∧
    (w.perform { traced := true, control } k).2 = (w.perform { control } k).2 := by
  cases hc : Context.fresh w.settings.memorySize with
  | error fault =>
      rw [perform_eq_of_error hc, perform_eq_of_error hc]
      exact ⟨rfl, rfl⟩
  | ok c =>
      have h0 := Context.steps_of_fresh hc
      have he : (w.setup { control } 0).SameTask (w.setup { traced := true, control } 0) :=
        ⟨rfl, rfl, rfl⟩
      have hquiet : (w.setup { traced := true, control } 0).Quiet := .inl rfl
      have hflags : (w.setup { control } 0).control = none ∨ ∀ i,
          ((w.setup { traced := true, control } 0).standing c i).2.canceled
            = ((w.setup { control } 0).standing c i).2.canceled := by
        cases control with
        | none => exact .inl rfl
        | some reins =>
            refine .inr fun i => ?_
            rw [hquiet.canceled_standing h0]
            exact (hflag reins rfl c hc i).symm
      obtain ⟨ho, hcontext⟩ := Setup.standing_alike he h0 hflags k
      rw [perform_eq_conclude hc, perform_eq_conclude hc]
      simp only [conclude, ho, hcontext, and_self]

/-- A traced run hands nothing over. -/
theorem sent_perform_of_traced (w : Machine) (control : Option Control) (k : Nat) :
    (w.perform { traced := true, control } k).1.sent = #[] := by
  cases hc : Context.fresh w.settings.memorySize with
  | error fault => rw [perform_eq_of_error hc]
  | ok c =>
      rw [perform_eq_conclude hc]
      show (Setup.standing _ c k).2.sent = #[]
      rw [Setup.standing_eq_runFor (Context.steps_of_fresh hc)]
      exact Flat.sent_runFor_of_traced rfl k _

/-- Any other run hands its listener what it outputs. -/
theorem Used.sent_perform {w : Machine} (hw : w.Used) {l : Listener} (hl : w.listener = some l)
    (control : Option Control) (k : Nat) :
    (w.perform { control } k).1.sent = (w.perform { control } k).2.context.output := by
  cases hc : Context.fresh w.settings.memorySize with
  | error fault =>
      rw [perform_eq_of_error hc]
      show #[] = w.context.output
      rw [hw.context_eq hc]
  | ok c =>
      rw [perform_eq_conclude hc]
      show (Setup.standing _ c k).2.sent = (Setup.standing _ c k).2.context.output
      rw [Setup.standing_eq_runFor (Context.steps_of_fresh hc)]
      refine Flat.sent_runFor_of_listener rfl hl ?_ k
      rw [Context.eq_of_fresh hc]
      rfl

end Machine

/-- **WATCHING A RUN DOES NOT CHANGE IT.**  For every program, all settings and
all reins whose flag the run leaves as it is: a traced run ends if and only if
the untraced one does, by the same token, and both end alike, with the same
output, tape, waiting word and step count.  A traced run hands nothing to a
listener; an untraced one hands it exactly what it outputs, in order, however
the run comes to a stop. -/
theorem perform_traced (w : Machine) (control : Option Control) :
    ((∀ reins, control = some reins → ∀ c, Context.fresh w.settings.memorySize = .ok c →
        ∀ k, ((w.setup { control } k).run c).2.canceled = reins.canceled) →
      ∀ k,
        (w.perform { traced := true, control } k).1.ending
          = (w.perform { control } k).1.ending ∧
        (w.perform { traced := true, control } k).2 = (w.perform { control } k).2) ∧
    (∀ k, (w.perform { traced := true, control } k).1.sent = #[]) ∧
    (w.Used → ∀ l, w.listener = some l → ∀ k,
      (w.perform { control } k).1.sent = (w.perform { control } k).2.context.output) :=
  ⟨Machine.perform_traced_alike w control, Machine.sent_perform_of_traced w control,
    fun hw _ hl k => hw.sent_perform hl control k⟩

/-- A loop that outputs twice, with someone who listens. -/
def overheard : Machine where
  program := .ofTokens [.literal (.word .upper), .literal (.word .upper), .literal .output,
    .literal .loopBegin, .literal (.word .lower), .literal (.word .lower), .literal .output,
    .literal .loopEnd]
  settings := { memorySize := 1 }
  listener := some {}

theorem perform_traced_overheard :
    overheard.Used ∧
    (∀ c, Context.fresh 1 = .ok c →
      ∀ k, ((overheard.setup { control := some {} } k).run c).2.canceled = false) ∧
    (overheard.perform { traced := true, control := some {} } 8).1.ending = .finished ∧
    (overheard.perform { traced := true, control := some {} } 8).2
      = (overheard.perform { control := some {} } 8).2 ∧
    (overheard.perform { traced := true, control := some {} } 8).1.sent = #[] ∧
    (overheard.perform { control := some {} } 8).1.sent
      = (overheard.perform { control := some {} } 8).2.context.output ∧
    (overheard.perform { control := some {} } 8).2.context.output = #[1, 0] := by
  have hused : overheard.Used := .listen {} (.new overheard.program overheard.settings)
  have hflag : ∀ c, Context.fresh 1 = .ok c →
      ∀ k, ((overheard.setup { control := some {} } k).run c).2.canceled = false := by
    intro c hc k
    have hquiet : (overheard.setup { control := some {} } k).Quiet := .inr fun l hl => by
      injection hl with hl
      rw [← hl]
    rw [Setup.run_eq_standing]
    exact hquiet.canceled_standing (Context.steps_of_fresh hc) k
  obtain ⟨halike, hnothing, hsent⟩ := perform_traced overheard (some {})
  have h := halike (fun reins hr c hc k => by injection hr with hr; rw [← hr]; exact hflag c hc k) 8
  exact ⟨hused, hflag, by rw [h.1]; decide, h.2, hnothing 8, hsent hused _ rfl 8, by decide⟩

end Prairie
