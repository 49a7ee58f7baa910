/-
  Prairie.Proofs.Machine.Flat
  ───────────────────────────
  **THE FLAT MACHINE.**

  A second way to run a program, without frames inside frames.  Its whole
  control is a position and a stack of the cells that the open loops test:

      (      push the cell under the head, go on behind the bracket
      )      top cell zero: pop, go on behind the bracket
             otherwise: back behind the bracket that this one STATICALLY
             closes (`Program.opener?`), the stack stays
      else   carry out the token, go on

  It stops with a fault at a `(` when the stack is as high as loops may nest,
  at a `)` when the stack is empty, and it is over as soon as the position
  has passed the last token, whatever is on the stack.

      step   : one dispatched token
      runFor : at most `k` dispatched tokens
-/
import Prairie.Machine.Run
import Prairie.Proofs.Machine.Brackets

namespace Prairie

/-! ## §1. The step count and the reins. -/

@[simp] theorem Context.steps_count (c : Context) : c.count.steps = c.steps + 1 := rfl

@[simp] theorem Context.steps_emit (c : Context) : c.emit.steps = c.steps := rfl

@[simp] theorem Context.steps_read (w : Word) (c : Context) : (c.read w).steps = c.steps := by
  unfold Context.read
  split <;> rfl

namespace Setup

/-- Every dispatched token is counted once, traced or not. -/
@[simp] theorem context_dispatch (e : Setup) (position : Nat) (token : Token)
    (action : Context → Context → Action) (effect : Context → Context) (r : Run) :
    (e.dispatch position token action effect r).context = (effect r.context).count := by
  unfold dispatch
  split <;> rfl

@[simp] theorem context_send (e : Setup) (r : Run) : (e.send r).context = r.context := by
  unfold send
  split
  · rfl
  · split <;> rfl

/-- Without reins every token is let pass. -/
theorem refusal?_of_free {e : Setup} (h : e.control = none) (r : Run) : e.refusal? r = none := by
  rw [refusal?, h]

/-- The reins refuse a token because the flag is up or the limit is reached. -/
theorem refusal?_cases {e : Setup} {r : Run} {fault : Fault} (h : e.refusal? r = some fault) :
    (fault = .canceled ∧ r.canceled = true) ∨ ∃ limit, fault = .stepLimitExceeded limit := by
  unfold refusal? at h
  split at h
  · cases h
  · split at h
    next hflag =>
        injection h with h
        exact .inl ⟨h.symm, hflag⟩
    next =>
        split at h
        · cases h
        · split at h
          · injection h with h
            exact .inr ⟨_, h.symm⟩
          · cases h

end Setup

/-! ## §2. The machine. -/

/-- Where the flat machine stands. -/
structure Flat where
  position : Nat := 0
  /-- The cells that the open loops test, innermost first. -/
  tests : List Nat := []
  run : Run

namespace Flat

/-- Dispatch the token at which the machine stands. -/
def step (e : Setup) (token : Token) (s : Flat) : Except Fault Flat :=
  match token with
  | .comment _ =>
      .ok ⟨s.position + 1, s.tests, e.dispatch s.position token (fun _ _ => .comment) id s.run⟩
  | .literal (.word w) =>
      .ok ⟨s.position + 1, s.tests,
        e.dispatch s.position token (Action.ofWord w) (Context.read w) s.run⟩
  | .literal .output =>
      .ok ⟨s.position + 1, s.tests,
        e.send (e.dispatch s.position token (fun c _ => .output c.tape.current)
          Context.emit s.run)⟩
  | .literal .loopBegin =>
      match e.depthExceeded? s.tests.length with
      | some limit => .error (.loopDepthExceeded s.position limit)
      | none =>
          .ok ⟨s.position + 1, s.run.context.tape.head :: s.tests,
            e.dispatch s.position token (fun c _ => .entered c.tape.head) id s.run⟩
  | .literal .loopEnd =>
      match s.tests with
      | [] => .error (.unmatchedLoopEnd s.position)
      | test :: tests =>
          if s.run.context.tape.cell test = 0 then
            .ok ⟨s.position + 1, tests,
              e.dispatch s.position token (fun _ _ => .exited test) id s.run⟩
          else
            let start := (e.program.opener? s.position).getD 0 + 1
            .ok ⟨start, test :: tests,
              e.dispatch s.position token
                (fun c _ => .repeated test (c.tape.cell test) start) id s.run⟩

/-- Run the machine for at most `k` dispatched tokens. -/
def runFor (e : Setup) (k : Nat) (s : Flat) : Outcome × Run :=
  match e.program.token? s.position with
  | none => (.returned e.program.size, s.run)
  | some token =>
      match e.refusal? s.run with
      | some fault => (.failed fault, s.run)
      | none =>
          match k with
          | 0 => (.suspended s.position, s.run)
          | k + 1 =>
              match s.step e token with
              | .error fault => s.run.fail fault
              | .ok s => runFor e k s

/-! ## §3. The equations of a run. -/

section

variable {e : Setup} {s s' : Flat} {token : Token} {fault : Fault}

theorem runFor_of_end (ht : e.program.token? s.position = none) (k : Nat) :
    runFor e k s = (.returned e.program.size, s.run) := by
  rw [runFor, ht]

theorem runFor_of_refusal (ht : e.program.token? s.position = some token)
    (hr : e.refusal? s.run = some fault) (k : Nat) : runFor e k s = (.failed fault, s.run) := by
  rw [runFor, ht]
  simp only [hr]

theorem runFor_zero_of_allowed (ht : e.program.token? s.position = some token)
    (hr : e.refusal? s.run = none) : runFor e 0 s = (.suspended s.position, s.run) := by
  rw [runFor, ht]
  simp only [hr]

/-- A run that may dispatch nothing leaves everything as it was. -/
theorem run_runFor_zero (e : Setup) (s : Flat) : (runFor e 0 s).2 = s.run := by
  rw [runFor]
  split
  · rfl
  · split <;> rfl

theorem runFor_succ_of_error (ht : e.program.token? s.position = some token)
    (hr : e.refusal? s.run = none) (hs : s.step e token = .error fault) (k : Nat) :
    runFor e (k + 1) s = s.run.fail fault := by
  rw [runFor, ht]
  simp only [hr, hs]

theorem runFor_succ_of_ok (ht : e.program.token? s.position = some token)
    (hr : e.refusal? s.run = none) (hs : s.step e token = .ok s') (k : Nat) :
    runFor e (k + 1) s = runFor e k s' := by
  rw [runFor, ht]
  simp only [hr, hs]

end

/-! ## §4. The steps at brackets. -/

theorem step_enter {e : Setup} {s : Flat} (hd : e.depthExceeded? s.tests.length = none) :
    s.step e (.literal .loopBegin) = .ok ⟨s.position + 1, s.run.context.tape.head :: s.tests,
      e.dispatch s.position (.literal .loopBegin) (fun c _ => .entered c.tape.head) id
        s.run⟩ := by
  simp only [step, hd]

theorem step_tooDeep {e : Setup} {s : Flat} {limit : Nat}
    (hd : e.depthExceeded? s.tests.length = some limit) :
    s.step e (.literal .loopBegin) = .error (.loopDepthExceeded s.position limit) := by
  simp only [step, hd]

theorem step_unmatched (e : Setup) {s : Flat} (htests : s.tests = []) :
    s.step e (.literal .loopEnd) = .error (.unmatchedLoopEnd s.position) := by
  simp only [step, htests]

theorem step_leave (e : Setup) {s : Flat} {test : Nat} {tests : List Nat}
    (htests : s.tests = test :: tests) (hz : s.run.context.tape.cell test = 0) :
    s.step e (.literal .loopEnd) = .ok ⟨s.position + 1, tests,
      e.dispatch s.position (.literal .loopEnd) (fun _ _ => .exited test) id s.run⟩ := by
  simp only [step, htests, if_pos hz]

theorem step_again {e : Setup} {s : Flat} {test start : Nat} {tests : List Nat}
    (htests : s.tests = test :: tests) (hz : s.run.context.tape.cell test ≠ 0)
    (hstart : (e.program.opener? s.position).getD 0 + 1 = start) :
    s.step e (.literal .loopEnd) = .ok ⟨start, s.tests,
      e.dispatch s.position (.literal .loopEnd)
        (fun c _ => .repeated test (c.tape.cell test) start) id s.run⟩ := by
  simp only [step, htests, if_neg hz, hstart]

/-! ## §5. How one token moves the machine. -/

/-- The ways in which a dispatched token moves the machine through its
program. -/
inductive Move (e : Setup) (s s' : Flat) : Prop where
  /-- The token is no bracket. -/
  | onward (not_opens : ¬ e.program.Opens s.position)
      (not_closes : ¬ e.program.Closes s.position)
      (position_eq : s'.position = s.position + 1) (tests_eq : s'.tests = s.tests)
  /-- A loop is entered that may be entered. -/
  | enter (opens : e.program.Opens s.position)
      (allowed : ∀ l, e.maxLoopDepth = some l → s.tests.length < l)
      (position_eq : s'.position = s.position + 1)
      (tests_eq : s'.tests = s.run.context.tape.head :: s.tests)
  /-- The innermost loop is left, its cell being zero. -/
  | leave (test : Nat) (closes : e.program.Closes s.position)
      (open_eq : s.tests = test :: s'.tests) (cell_eq : s.run.context.tape.cell test = 0)
      (position_eq : s'.position = s.position + 1)
  /-- The innermost loop begins again. -/
  | again (test : Nat) (tests : List Nat) (closes : e.program.Closes s.position)
      (open_eq : s.tests = test :: tests) (cell_ne : s.run.context.tape.cell test ≠ 0)
      (position_eq : s'.position = (e.program.opener? s.position).getD 0 + 1)
      (tests_eq : s'.tests = s.tests)

theorem lt_of_depthExceeded? {e : Setup} {depth l : Nat} (h : e.depthExceeded? depth = none)
    (hl : e.maxLoopDepth = some l) : depth < l := by
  unfold Setup.depthExceeded? at h
  rw [hl, Option.filter_some] at h
  by_cases hle : l ≤ depth
  · simp [hle] at h
  · omega

theorem le_of_depthExceeded? {e : Setup} {depth l : Nat}
    (h : e.depthExceeded? depth = some l) : e.maxLoopDepth = some l ∧ l ≤ depth := by
  unfold Setup.depthExceeded? at h
  rw [Option.filter_eq_some_iff] at h
  exact ⟨h.1, by simpa using h.2⟩

/-- **What a step does**: it counts one token and moves in one of four ways. -/
theorem step_ok {e : Setup} {token : Token} {s s' : Flat}
    (ht : e.program.token? s.position = some token) (h : s.step e token = .ok s') :
    s'.run.context.steps = s.run.context.steps + 1 ∧ Move e s s' := by
  -- What the tokens that are no brackets have in common.
  have onward (ho : token ≠ .literal .loopBegin) (hc : token ≠ .literal .loopEnd) :
      ∀ r, Move e s ⟨s.position + 1, s.tests, r⟩ := by
    intro r
    obtain ⟨hno, hnc⟩ := Program.neither_of_token? ht ho hc
    exact .onward hno hnc rfl rfl
  unfold step at h
  split at h
  next text =>
      injection h with h
      subst h
      exact ⟨by simp, onward (by simp) (by simp) _⟩
  next w =>
      injection h with h
      subst h
      exact ⟨by simp, onward (by simp) (by simp) _⟩
  next =>
      injection h with h
      subst h
      exact ⟨by simp, onward (by simp) (by simp) _⟩
  next =>
      split at h
      next => cases h
      next hd =>
          injection h with h
          subst h
          exact ⟨by simp, .enter ht (fun l => lt_of_depthExceeded? hd) rfl rfl⟩
  next =>
      split at h
      next => cases h
      next test tests htests =>
          split at h
          next hz =>
              injection h with h
              subst h
              exact ⟨by simp, .leave test ht htests hz rfl⟩
          next hz =>
              injection h with h
              subst h
              exact ⟨by simp, .again test tests ht htests hz rfl htests.symm⟩

/-- **When a step fails**: at a closing bracket in no loop, or at an opening
one in as many loops as the limit allows. -/
theorem step_error {e : Setup} {token : Token} {s : Flat} {fault : Fault}
    (ht : e.program.token? s.position = some token) (h : s.step e token = .error fault) :
    (e.program.Closes s.position ∧ s.tests = [] ∧ fault = .unmatchedLoopEnd s.position) ∨
    (e.program.Opens s.position ∧ ∃ l, e.maxLoopDepth = some l ∧ l ≤ s.tests.length ∧
      fault = .loopDepthExceeded s.position l) := by
  unfold step at h
  split at h
  next => cases h
  next => cases h
  next => cases h
  next =>
      split at h
      next l hd =>
          injection h with h
          obtain ⟨hl, hle⟩ := le_of_depthExceeded? hd
          exact .inr ⟨ht, l, hl, hle, h.symm⟩
      next => cases h
  next =>
      split at h
      next htests =>
          injection h with h
          exact .inl ⟨ht, htests, h.symm⟩
      next => split at h <;> cases h

/-! ## §6. The height of the stack. -/

/-- The stack of a state is as high as brackets stand open around it. -/
def Level (e : Setup) (s : Flat) : Prop :=
  s.tests.length = (e.program.enclosing s.position).length

/-- Inside a loop some bracket stands open. -/
theorem Level.enclosing_cons {e : Setup} {s : Flat} {test : Nat} {tests : List Nat}
    (hs : Level e s) (htests : s.tests = test :: tests) :
    ∃ o rest, e.program.enclosing s.position = o :: rest := by
  refine List.exists_cons_of_ne_nil fun henc => ?_
  unfold Level at hs
  rw [henc, htests] at hs
  cases hs

/-- Every move keeps the stack level with the brackets, and goes on by one
token or back. -/
theorem Move.level {e : Setup} {s t : Flat} (h : Move e s t) (hs : Level e s) :
    Level e t ∧ t.position ≤ s.position + 1 := by
  have hlevel := hs
  unfold Level at hs ⊢
  cases h with
  | onward hno hnc hp ht =>
      rw [hp, ht, Program.enclosing_succ_of_neither hno hnc]
      exact ⟨hs, Nat.le_refl _⟩
  | enter ho _ hp ht =>
      rw [hp, ht, Program.enclosing_succ_of_opens ho, List.length_cons, List.length_cons, hs]
      exact ⟨rfl, Nat.le_refl _⟩
  | leave test hc htests _ hp =>
      rw [hp, Program.enclosing_succ_of_closes hc, List.length_tail, ← hs, htests]
      exact ⟨rfl, Nat.le_refl _⟩
  | again test tests hc htests _ hp ht =>
      -- The stack is not empty, so some bracket stands open; it is jumped to.
      obtain ⟨o, rest, henc⟩ := hlevel.enclosing_cons htests
      obtain ⟨hin, hrest⟩ := Program.innermost_of_enclosing henc
      have hlt := hin.lt
      rw [hp, ht, Program.opener?_of_enclosing hc henc, Option.getD_some,
        Program.enclosing_succ_of_opens hin.opens, ← hrest, ← henc]
      exact ⟨hs, by omega⟩

end Flat

end Prairie
