/-
  Prairie.Proofs.Machine.Trail
  ────────────────────────────
  **THE STATES OF A RUN, BY NUMBER.**

  `after e s k` is the state of the flat machine after exactly `k` dispatched
  tokens from `s`, if the run gets that far.  A state is DUE a token when one
  stands at its position and the reins let it pass.

    • `after_induction`  what holds at first and is kept by a step holds of
      every state of a run,
    • `verdict`          how a run of at most `k` tokens comes to a stop: it
      is suspended, over, held back by the reins, or stopped by a fault,
    • `runFor_induction` what holds at first and is kept by a token holds
      wherever a run comes to a stop,
    • `runFor_translate` what each token tells, a run tells: two runs are
      compared token by token, at positions that may differ (`runFor_mapRun`
      if they are the same, `InStep` if the runs are to be the same, too),
    • `Setup.due?`       the number of the token that a run of FRAMES
      dispatches after `k` others, read off the suspended run,
    • `due?_eq_some_iff` it is where the flat machine stands after `k` steps.
-/
import Prairie.Proofs.Machine.Simulation

namespace Prairie

/-- The outcome with its fault and its positions told in another way. -/
def Outcome.map (φ : Fault → Fault) (f : Nat → Nat) : Outcome → Outcome
  | returned stop => returned (f stop)
  | failed fault => failed (φ fault)
  | suspended next => suspended (f next)

theorem Outcome.map_id (o : Outcome) : o.map id id = o := by
  cases o <;> rfl

namespace Flat

variable {e : Setup} {s t t' : Flat} {token : Token} {k : Nat}

/-! ## §1. States by number. -/

/-- The token `token` is about to be dispatched. -/
structure Due (e : Setup) (s : Flat) (token : Token) : Prop where
  token_eq : e.program.token? s.position = some token
  allowed : e.refusal? s.run = none

/-- The state after one more dispatched token. -/
def next? (e : Setup) (s : Flat) : Option Flat :=
  match e.program.token? s.position, e.refusal? s.run with
  | some token, none => (s.step e token).toOption
  | _, _ => none

/-- The state after exactly `k` dispatched tokens. -/
def after (e : Setup) (s : Flat) : Nat → Option Flat
  | 0 => some s
  | k + 1 => (after e s k).bind (next? e)

theorem next?_eq_some_iff :
    next? e s = some t ↔ ∃ token, Due e s token ∧ s.step e token = .ok t := by
  unfold next?
  constructor
  · intro h
    split at h
    next token ht hr =>
        refine ⟨token, ⟨ht, hr⟩, ?_⟩
        cases hs : s.step e token with
        | error fault => rw [hs] at h; cases h
        | ok s' => rw [hs] at h; injection h with h; rw [h]
    next => cases h
  · rintro ⟨token, ⟨ht, hr⟩, hs⟩
    simp only [ht, hr, hs]
    rfl

theorem after_succ_eq_some_iff :
    after e s (k + 1) = some t' ↔ ∃ t, after e s k = some t ∧ next? e t = some t' := by
  rw [after, Option.bind_eq_some_iff]

/-- The first of `k + 1` tokens can be split off as well as the last. -/
theorem after_succ_of_next? (h : next? e s = some t) (k : Nat) :
    after e s (k + 1) = after e t k := by
  induction k with
  | zero => simp [after, h]
  | succ k ih => rw [after, ih, after]

/-- **What a step keeps, a run keeps.** -/
theorem after_induction {P : Flat → Prop} (h0 : P s)
    (hstep : ∀ t t', P t → next? e t = some t' → P t') :
    ∀ {k : Nat} {t : Flat}, after e s k = some t → P t := by
  intro k
  induction k with
  | zero =>
      intro t h
      injection h with h
      exact h ▸ h0
  | succ k ih =>
      intro t' h
      obtain ⟨t, ht, hn⟩ := after_succ_eq_some_iff.mp h
      exact hstep t t' (ih ht) hn

theorem steps_after :
    ∀ {k : Nat} {t : Flat}, after e s k = some t →
      t.run.context.steps = s.run.context.steps + k := by
  intro k
  induction k with
  | zero =>
      intro t h
      injection h with h
      rw [h, Nat.add_zero]
  | succ k ih =>
      intro t' h
      obtain ⟨t, ht, hn⟩ := after_succ_eq_some_iff.mp h
      obtain ⟨token, hdue, hs⟩ := next?_eq_some_iff.mp hn
      rw [(step_ok hdue.token_eq hs).1, ih ht, Nat.add_assoc]

/-! ## §2. How a run comes to a stop. -/

/-- The ways in which a run of at most `k` tokens from `s` comes to a stop. -/
inductive Verdict (e : Setup) (s : Flat) (k : Nat) : Outcome × Run → Prop where
  /-- The `k` tokens have been dispatched and another one is due. -/
  | suspended (t : Flat) (token : Token) (reached : after e s k = some t)
      (due : Due e t token) : Verdict e s k (.suspended t.position, t.run)
  /-- The program is over. -/
  | finished (j : Nat) (t : Flat) (le : j ≤ k) (reached : after e s j = some t)
      (at_end : e.program.token? t.position = none) :
      Verdict e s k (.returned e.program.size, t.run)
  /-- The reins forbid the next token. -/
  | refused (j : Nat) (t : Flat) (token : Token) (fault : Fault) (le : j ≤ k)
      (reached : after e s j = some t) (token_eq : e.program.token? t.position = some token)
      (refusal : e.refusal? t.run = some fault) : Verdict e s k (.failed fault, t.run)
  /-- The token that was dispatched last failed. -/
  | faulted (j : Nat) (t : Flat) (token : Token) (fault : Fault) (lt : j < k)
      (reached : after e s j = some t) (due : Due e t token)
      (error : t.step e token = .error fault) : Verdict e s k (t.run.fail fault)

/-- A run that begins with a token stops as the rest of it does. -/
theorem Verdict.cons {o : Outcome × Run} (hn : next? e s = some t) (h : Verdict e t k o) :
    Verdict e s (k + 1) o := by
  cases h with
  | suspended u token reached due =>
      exact .suspended u token ((after_succ_of_next? hn k).trans reached) due
  | finished j u le reached at_end =>
      exact .finished (j + 1) u (Nat.succ_le_succ le)
        ((after_succ_of_next? hn j).trans reached) at_end
  | refused j u token fault le reached token_eq refusal =>
      exact .refused (j + 1) u token fault (Nat.succ_le_succ le)
        ((after_succ_of_next? hn j).trans reached) token_eq refusal
  | faulted j u token fault lt reached due error =>
      exact .faulted (j + 1) u token fault (Nat.succ_lt_succ lt)
        ((after_succ_of_next? hn j).trans reached) due error

/-- **Every run comes to a stop in one of these ways.** -/
theorem verdict (e : Setup) (k : Nat) (s : Flat) : Verdict e s k (runFor e k s) := by
  -- The recursion of `runFor`: a stop at `s` itself, or a step and the rest.
  induction k generalizing s with
  | zero =>
      cases ht : e.program.token? s.position with
      | none =>
          rw [runFor_of_end ht]
          exact .finished 0 s (Nat.le_refl _) rfl ht
      | some token =>
          cases hr : e.refusal? s.run with
          | some fault =>
              rw [runFor_of_refusal ht hr]
              exact .refused 0 s token fault (Nat.le_refl _) rfl ht hr
          | none =>
              rw [runFor_zero_of_allowed ht hr]
              exact .suspended s token rfl ⟨ht, hr⟩
  | succ k ih =>
      cases ht : e.program.token? s.position with
      | none =>
          rw [runFor_of_end ht]
          exact .finished 0 s (Nat.zero_le _) rfl ht
      | some token =>
          cases hr : e.refusal? s.run with
          | some fault =>
              rw [runFor_of_refusal ht hr]
              exact .refused 0 s token fault (Nat.zero_le _) rfl ht hr
          | none =>
              cases hs : s.step e token with
              | error fault =>
                  rw [runFor_succ_of_error ht hr hs]
                  exact .faulted 0 s token fault (Nat.succ_pos _) rfl ⟨ht, hr⟩ hs
              | ok s' =>
                  rw [runFor_succ_of_ok ht hr hs]
                  exact (ih s').cons (next?_eq_some_iff.mpr ⟨token, ⟨ht, hr⟩, hs⟩)

/-- A run of `j + k` tokens goes on from its `j`-th state. -/
theorem runFor_add : ∀ {j : Nat} {t : Flat}, after e s j = some t → ∀ k,
    runFor e (j + k) s = runFor e k t := by
  intro j
  induction j with
  | zero =>
      intro t h k
      injection h with h
      rw [h, Nat.zero_add]
  | succ j ih =>
      intro t' h k
      obtain ⟨t, ht, hn⟩ := after_succ_eq_some_iff.mp h
      obtain ⟨token, hdue, hs⟩ := next?_eq_some_iff.mp hn
      rw [Nat.add_right_comm, Nat.add_assoc, ih ht (k + 1)]
      exact runFor_succ_of_ok hdue.token_eq hdue.allowed hs k

/-- A state that is due a token is where a run is suspended. -/
theorem runFor_of_due (h : after e s k = some t) (hdue : Due e t token) :
    runFor e k s = (.suspended t.position, t.run) := by
  rw [← Nat.add_zero k, runFor_add h 0]
  exact runFor_zero_of_allowed hdue.token_eq hdue.allowed

/-- A state behind the last token is where a run finishes. -/
theorem runFor_of_at_end (h : after e s k = some t) (hend : e.program.token? t.position = none) :
    runFor e k s = (.returned e.program.size, t.run) := by
  rw [← Nat.add_zero k, runFor_add h 0, runFor_of_end hend]

/-- A token that fails is where a run that may dispatch it ends. -/
theorem runFor_of_error {fault : Fault} (h : after e s k = some t) (hdue : Due e t token)
    (hs : t.step e token = .error fault) : runFor e (k + 1) s = t.run.fail fault := by
  rw [runFor_add h 1, runFor_succ_of_error hdue.token_eq hdue.allowed hs]

/-- A state that is reached is what a run of as many tokens leaves behind. -/
theorem run_runFor_of_after (h : after e s k = some t) : (runFor e k s).2 = t.run := by
  rw [← Nat.add_zero k, runFor_add h 0, run_runFor_zero]

theorem runFor_eq_suspended_iff {i : Nat} :
    (runFor e k s).1 = .suspended i ↔
      ∃ t token, after e s k = some t ∧ Due e t token ∧ t.position = i := by
  constructor
  · intro h
    have hv := verdict e k s
    generalize runFor e k s = o at h hv
    cases hv with
    | suspended t token reached due =>
        injection h with h
        exact ⟨t, token, reached, due, h⟩
    | finished => cases h
    | refused => cases h
    | faulted => cases h
  · rintro ⟨t, token, ht, hdue, rfl⟩
    rw [runFor_of_due ht hdue]

/-- **What a token keeps, a run keeps**, wherever it comes to a stop; the token
that fails is counted and does nothing else. -/
theorem runFor_induction {P : Run → Prop} (h0 : P s.run)
    (hstep : ∀ t t' : Flat, P t.run → next? e t = some t' → P t'.run)
    (hfail : ∀ r : Run, P r → P { r with context := r.context.count }) (k : Nat) :
    P (runFor e k s).2 := by
  have key : ∀ {j : Nat} {t : Flat}, after e s j = some t → P t.run :=
    after_induction (P := fun t => P t.run) h0 hstep
  have hv := verdict e k s
  generalize runFor e k s = o at hv ⊢
  cases hv with
  | suspended t token reached due => exact key reached
  | finished j t le reached at_end => exact key reached
  | refused j t token fault le reached token_eq refusal => exact key reached
  | faulted j t token fault lt reached due error => exact hfail t.run (key reached)

/-- A run of at most `k` tokens counts no more than `k`. -/
theorem steps_runFor_le (e : Setup) (k : Nat) (s : Flat) :
    (runFor e k s).2.context.steps ≤ s.run.context.steps + k := by
  have hv := verdict e k s
  generalize runFor e k s = o at hv ⊢
  cases hv with
  | suspended t token reached due => exact Nat.le_of_eq (steps_after reached)
  | finished j t le reached at_end =>
      rw [steps_after reached]
      omega
  | refused j t token fault le reached token_eq refusal =>
      rw [steps_after reached]
      omega
  | faulted j t token fault lt reached due error =>
      show t.run.context.steps + 1 ≤ _
      rw [steps_after reached]
      omega

/-- A run that came to its end within `k` tokens comes to the same end when it
may dispatch `k`. -/
theorem runFor_eq_of_steps_le {j : Nat} (hover : ∀ i, (runFor e j s).1 ≠ .suspended i)
    (hsteps : (runFor e j s).2.context.steps ≤ s.run.context.steps + k) :
    runFor e k s = runFor e j s := by
  have hv := verdict e j s
  generalize runFor e j s = o at hover hsteps hv ⊢
  -- In each case the end is some `i` tokens away, and `i` is at most `k`.
  cases hv with
  | suspended t token reached due => exact absurd rfl (hover t.position)
  | finished i t le reached at_end =>
      rw [steps_after reached] at hsteps
      obtain ⟨d, rfl⟩ := Nat.exists_eq_add_of_le (Nat.le_of_add_le_add_left hsteps)
      rw [runFor_add reached, runFor_of_end at_end]
  | refused i t token fault le reached token_eq refusal =>
      rw [steps_after reached] at hsteps
      obtain ⟨d, rfl⟩ := Nat.exists_eq_add_of_le (Nat.le_of_add_le_add_left hsteps)
      rw [runFor_add reached, runFor_of_refusal token_eq refusal]
  | faulted i t token fault lt reached due error =>
      have hlt : i + 1 ≤ k := by
        have : t.run.context.steps + 1 ≤ s.run.context.steps + k := hsteps
        rw [steps_after reached] at this
        omega
      obtain ⟨d, rfl⟩ := Nat.exists_eq_add_of_le hlt
      rw [Nat.add_assoc, runFor_add reached, Nat.add_comm 1 d]
      exact runFor_succ_of_error due.token_eq due.allowed error d

/-! ## §3. Two runs side by side. -/

/-- Setups that do alike at each state of a run have the same states. -/
theorem after_congr {e' : Setup}
    (h : ∀ i < k, ∀ t, after e s i = some t → next? e' t = next? e t) :
    after e' s k = after e s k := by
  induction k with
  | zero => rfl
  | succ k ih =>
      rw [after, after, ih fun i hi => h i (Nat.lt_succ_of_lt hi)]
      cases hs : after e s k with
      | none => rfl
      | some t => exact h k (Nat.lt_succ_self k) t hs

/-- The state with its position and its run told in another way. -/
def translate (f : Nat → Nat) (g : Run → Run) (t : Flat) : Flat := ⟨f t.position, t.tests, g t.run⟩

/-- A way to tell the runs of one setup as runs of another: positions by `f`,
faults by `φ` and runs by `g`.  The same token stands at a position that is told,
the same may hold the run back, and a token that fails is counted alike. -/
structure Translation (e e' : Setup) (f : Nat → Nat) (φ : Fault → Fault) (g : Run → Run) :
    Prop where
  token_eq : ∀ i, e'.program.token? (f i) = e.program.token? i
  size_eq : e'.program.size = f e.program.size
  refusal_eq : ∀ r, e'.refusal? (g r) = (e.refusal? r).map φ
  fail_eq : ∀ r : Run, g { r with context := r.context.count }
    = { g r with context := (g r).context.count }

/-- **What each token of a run tells, the run tells.** -/
theorem runFor_translate {e' : Setup} {f : Nat → Nat} {φ : Fault → Fault} {g : Run → Run}
    (h : Translation e e' f φ g)
    (hstep : ∀ i < k, ∀ t token, after e s i = some t → Due e t token →
      (t.translate f g).step e' token = ((t.step e token).map (translate f g)).mapError φ) :
    runFor e' k (s.translate f g) = ((runFor e k s).1.map φ f, g (runFor e k s).2) := by
  induction k generalizing s with
  | zero =>
      have ht : e'.program.token? (s.translate f g).position = e.program.token? s.position :=
        h.token_eq s.position
      have hr : e'.refusal? (s.translate f g).run = (e.refusal? s.run).map φ := h.refusal_eq s.run
      rw [runFor, runFor, ht, hr, h.size_eq]
      cases e.program.token? s.position with
      | none => rfl
      | some token => cases e.refusal? s.run <;> rfl
  | succ k ih =>
      have ht' : e'.program.token? (s.translate f g).position = e.program.token? s.position :=
        h.token_eq s.position
      have hr' : e'.refusal? (s.translate f g).run = (e.refusal? s.run).map φ := h.refusal_eq s.run
      cases ht : e.program.token? s.position with
      | none =>
          rw [runFor_of_end ht, runFor_of_end (ht'.trans ht), h.size_eq]
          rfl
      | some token =>
          rw [ht] at ht'
          cases hr : e.refusal? s.run with
          | some fault =>
              rw [hr] at hr'
              rw [runFor_of_refusal ht hr, runFor_of_refusal ht' hr']
              rfl
          | none =>
              rw [hr] at hr'
              have hfirst := hstep 0 (Nat.succ_pos k) s token rfl ⟨ht, hr⟩
              cases hs : s.step e token with
              | error fault =>
                  rw [hs] at hfirst
                  rw [runFor_succ_of_error ht hr hs, runFor_succ_of_error ht' hr' hfirst, Run.fail,
                    Run.fail, h.fail_eq]
                  rfl
              | ok u =>
                  -- The rest of the run is one token shorter, and so are its states.
                  have hn : next? e s = some u := next?_eq_some_iff.mpr ⟨token, ⟨ht, hr⟩, hs⟩
                  rw [hs] at hfirst
                  rw [runFor_succ_of_ok ht hr hs, runFor_succ_of_ok ht' hr' hfirst]
                  refine ih fun i hi t token' h => ?_
                  exact hstep (i + 1) (Nat.succ_lt_succ hi) t token'
                    ((after_succ_of_next? hn i).trans h)

/-- The state with its run looked at in another way. -/
def mapRun (g : Run → Run) (t : Flat) : Flat := { t with run := g t.run }

/-- A way to look at a run of one setup as a run of another.  It makes no
difference to what may hold the run back, nor to the counting of a token that
fails. -/
structure View (e e' : Setup) (g : Run → Run) : Prop where
  program_eq : e'.program = e.program
  refusal_eq : ∀ r, e'.refusal? (g r) = e.refusal? r
  fail_eq : ∀ r : Run, g { r with context := r.context.count }
    = { g r with context := (g r).context.count }

/-- **What each token of a run respects, the run respects.** -/
theorem runFor_mapRun {e' : Setup} {g : Run → Run} (hg : View e e' g)
    (hstep : ∀ i < k, ∀ t token, after e s i = some t → Due e t token →
      (t.mapRun g).step e' token = (t.step e token).map (mapRun g)) :
    runFor e' k (s.mapRun g) = ((runFor e k s).1, g (runFor e k s).2) := by
  have htranslation : Translation e e' id id g := by
    refine ⟨fun i => congrArg (·.token? i) hg.program_eq, congrArg Program.size hg.program_eq,
      fun r => ?_, hg.fail_eq⟩
    rw [hg.refusal_eq, Option.map_id]
    rfl
  have htold : ∀ i < k, ∀ t token, after e s i = some t → Due e t token →
      (t.translate id g).step e' token
        = ((t.step e token).map (translate id g)).mapError id := by
    intro i hi t token ht hdue
    have hsame : (t.translate id g).step e' token = (t.step e token).map (translate id g) :=
      hstep i hi t token ht hdue
    rw [hsame]
    cases t.step e token <;> rfl
  have hrun := runFor_translate htranslation htold
  rw [Outcome.map_id] at hrun
  exact hrun

/-- Two setups have the same program and the same reins, and each of the first
`k` tokens of a run does in the one what it does in the other. -/
structure InStep (e e' : Setup) (s : Flat) (k : Nat) : Prop where
  program_eq : e'.program = e.program
  control_eq : e'.control = e.control
  step_eq : ∀ i < k, ∀ t token, after e s i = some t → Due e t token →
    t.step e' token = t.step e token

theorem refusal?_of_control_eq {e' : Setup} (h : e'.control = e.control) (r : Run) :
    e'.refusal? r = e.refusal? r := by
  rw [Setup.refusal?, Setup.refusal?, h]

theorem InStep.after_eq {e' : Setup} (h : InStep e e' s k) : after e' s k = after e s k := by
  refine after_congr fun i hi t ht => ?_
  rw [next?, next?, h.program_eq, refusal?_of_control_eq h.control_eq]
  split
  next token htoken hr => rw [h.step_eq i hi t token ht ⟨htoken, hr⟩]
  next => rfl

/-- **Runs in step come to the same stop.** -/
theorem InStep.runFor_eq {e' : Setup} (h : InStep e e' s k) : runFor e' k s = runFor e k s := by
  have hview : View e e' id :=
    ⟨h.program_eq, refusal?_of_control_eq h.control_eq, fun _ => rfl⟩
  refine runFor_mapRun hview fun i hi t token ht hdue => ?_
  show t.step e' token = (t.step e token).map id
  rw [h.step_eq i hi t token ht hdue, Except.map_id]
  rfl

end Flat

theorem Program.lt_size_of_token? {p : Program} {i : Nat} {t : Token} (h : p.token? i = some t) :
    i < p.size := by
  refine Nat.lt_of_not_le fun hle => ?_
  rw [Flat.token?_eq_none_iff.mpr hle] at h
  cases h

theorem Program.exists_token?_of_lt {p : Program} {i : Nat} (h : i < p.size) :
    ∃ token, p.token? i = some token := by
  refine Option.ne_none_iff_exists'.mp fun hnone => ?_
  exact Nat.not_le_of_lt h (Flat.token?_eq_none_iff.mp hnone)

/-! ## §4. The tokens that a run of frames dispatches. -/

/-- The run that starts in a context; the flag may be up from the first. -/
def Setup.begin (e : Setup) (c : Context) : Run :=
  { context := c, canceled := e.control.any Control.canceled }

/-- How the frames of a program stand when they may dispatch `k` tokens. -/
def Setup.standing (e : Setup) (c : Context) (k : Nat) : Outcome × Run :=
  { e with allowance := k }.evaluate (k + 1) {} 0 (e.begin c)

/-- The token that a run dispatches after `k` others, if it gets that far. -/
def Setup.due? (e : Setup) (c : Context) (k : Nat) : Option Nat :=
  match (e.standing c k).1 with
  | .suspended next => some next
  | _ => none

/-- Where the flat machine begins. -/
def Flat.begin (e : Setup) (c : Context) : Flat := { run := e.begin c }

theorem Context.eq_of_fresh {memorySize : Nat} {c : Context}
    (h : Context.fresh memorySize = .ok c) : c = { tape := .zeroed (tapeLength memorySize) } := by
  simp only [Context.fresh] at h
  split at h
  · cases h
  · injection h with h
    exact h.symm

theorem Context.steps_of_fresh {memorySize : Nat} {c : Context}
    (h : Context.fresh memorySize = .ok c) : c.steps = 0 := by
  rw [Context.eq_of_fresh h]

/-- A tape that cannot be had is too large. -/
theorem Context.fault_of_fresh {memorySize : Nat} {fault : Fault}
    (h : Context.fresh memorySize = .error fault) : fault = .tapeTooLarge (tapeLength memorySize) := by
  simp only [Context.fresh] at h
  split at h
  · injection h with h
    exact h.symm
  · cases h

theorem Outcome.ending_eq_suspended_iff {o : Outcome} :
    o.ending = .suspended ↔ ∃ next, o = .suspended next := by
  cases o <;> simp [ending]

theorem Outcome.ending_eq_failed_iff {o : Outcome} {fault : Fault} :
    o.ending = .failed fault ↔ o = .failed fault := by
  cases o <;> simp [ending]

namespace Setup

variable {e : Setup} {c : Context}

theorem run_eq_standing (e : Setup) (c : Context) :
    e.run c = ((e.standing c e.allowance).1.ending, (e.standing c e.allowance).2) := rfl

theorem standing_eq_runFor (hc : c.steps = 0) (k : Nat) :
    e.standing c k = Flat.runFor e k (Flat.begin e c) := by
  have h := Flat.evaluate_eq_runFor e (e.begin c) k
  have h0 : (e.begin c).context.steps = 0 := hc
  rw [h0, Nat.zero_add] at h
  exact h

/-- A run counts no more tokens than it may dispatch. -/
theorem steps_standing_le (e : Setup) (hc : c.steps = 0) (k : Nat) :
    (e.standing c k).2.context.steps ≤ k := by
  have h := Flat.steps_runFor_le e k (Flat.begin e c)
  have h0 : (Flat.begin e c).run.context.steps = 0 := hc
  rw [h0, Nat.zero_add] at h
  rw [standing_eq_runFor hc]
  exact h

/-- A run that would go on has dispatched all it may. -/
theorem steps_standing_of_suspended (hc : c.steps = 0) {k i : Nat}
    (h : (e.standing c k).1 = .suspended i) : (e.standing c k).2.context.steps = k := by
  rw [standing_eq_runFor hc] at h ⊢
  obtain ⟨t, token, ht, -, -⟩ := Flat.runFor_eq_suspended_iff.mp h
  have h0 : (Flat.begin e c).run.context.steps = 0 := hc
  rw [Flat.run_runFor_of_after ht, Flat.steps_after ht, h0, Nat.zero_add]

/-- A run that came to its end within `k` tokens stands there when it may
dispatch `k`. -/
theorem standing_eq_of_over (hc : c.steps = 0) {j k : Nat}
    (hover : (e.standing c j).1.ending ≠ .suspended)
    (hle : (e.standing c j).2.context.steps ≤ k) : e.standing c k = e.standing c j := by
  rw [standing_eq_runFor hc] at hover hle ⊢
  rw [standing_eq_runFor hc]
  refine Flat.runFor_eq_of_steps_le (fun i hi => ?_) ?_
  · rw [hi] at hover
    exact hover rfl
  · exact Nat.le_trans hle (Nat.le_add_left _ _)

/-- A run that comes to an end comes to one end. -/
theorem standing_unique (hc : c.steps = 0) {j k : Nat}
    (hj : (e.standing c j).1.ending ≠ .suspended) (hk : (e.standing c k).1.ending ≠ .suspended) :
    e.standing c j = e.standing c k := by
  rcases Nat.le_total j k with hle | hle
  · exact (standing_eq_of_over hc hj (Nat.le_trans (e.steps_standing_le hc j) hle)).symm
  · exact standing_eq_of_over hc hk (Nat.le_trans (e.steps_standing_le hc k) hle)

/-- No token is due just when the run has come to its end. -/
theorem due?_eq_none_iff {k : Nat} :
    e.due? c k = none ↔ (e.standing c k).1.ending ≠ .suspended := by
  unfold due?
  cases (e.standing c k).1 <;> simp [Outcome.ending]

/-- **The token that is due is the one the flat machine stands at.** -/
theorem due?_eq_some_iff (hc : c.steps = 0) {k i : Nat} :
    e.due? c k = some i ↔ ∃ t token, Flat.after e (Flat.begin e c) k = some t ∧
      Flat.Due e t token ∧ t.position = i := by
  rw [← Flat.runFor_eq_suspended_iff, due?, standing_eq_runFor hc]
  cases (Flat.runFor e k (Flat.begin e c)).1 <;> simp

end Setup

/-! ## §5. Frames and the flat machine side by side. -/

theorem Flat.level_begin (e : Setup) (c : Context) : Flat.Level e (Flat.begin e c) := rfl

/-- A run that starts level stays level. -/
theorem Flat.Level.after {e : Setup} {s t : Flat} {k : Nat} (h0 : Flat.Level e s)
    (h : Flat.after e s k = some t) : Flat.Level e t := by
  refine Flat.after_induction h0 (fun u u' hu hn => ?_) h
  obtain ⟨token, hdue, hs⟩ := Flat.next?_eq_some_iff.mp hn
  exact ((Flat.step_ok hdue.token_eq hs).2.level hu).1

/-- The stack is level in every state of a run. -/
theorem Flat.level_after {e : Setup} {c : Context} {k : Nat} {t : Flat}
    (h : Flat.after e (Flat.begin e c) k = some t) : Flat.Level e t :=
  (Flat.level_begin e c).after h

/-- A closing bracket that is reached with a loop open closes a bracket of the
program: there is always somewhere to jump to. -/
theorem Flat.exists_opener {e : Setup} {c : Context} {k : Nat} {t : Flat}
    (h : Flat.after e (Flat.begin e c) k = some t) (hc : e.program.Closes t.position)
    (hne : t.tests ≠ []) : ∃ o, e.program.opener? t.position = some o := by
  obtain ⟨test, tests, htests⟩ := List.exists_cons_of_ne_nil hne
  obtain ⟨o, rest, henc⟩ := (Flat.level_after h).enclosing_cons htests
  exact ⟨o, Program.opener?_of_enclosing hc henc⟩

/-- **A RUN OF FRAMES IS A STACK WITH STATIC JUMPS.**  For every program, every
tape that can be had and every number `k`, the frames and the flat machine
stand alike after `k` dispatched tokens: suspended at the same position, over,
or stopped by the same fault, and in the same context (tape, waiting word,
output, step count).  Whenever the flat machine is to jump there is a bracket
to jump to, and it is the one that matches. -/
theorem evaluate_eq_flat (e : Setup) (memorySize : Nat) (c : Context)
    (hc : Context.fresh memorySize = .ok c) :
    (∀ k, { e with allowance := k }.evaluate (k + 1) {} 0 (e.begin c)
      = Flat.runFor e k (Flat.begin e c)) ∧
    (∀ k t, Flat.after e (Flat.begin e c) k = some t → e.program.Closes t.position →
      t.tests ≠ [] → ∃ o, e.program.opener? t.position = some o) ∧
    (∀ o i, e.program.opener? i = some o ↔ e.program.Matches o i) :=
  ⟨Setup.standing_eq_runFor (Context.steps_of_fresh hc),
    fun _ _ h hcl hne => Flat.exists_opener h hcl hne,
    fun _ _ => Program.opener?_eq_some_iff⟩

/-- A loop that runs twice, and behind it one that is never closed. -/
def openLoop : Setup where
  program := .ofTokens [.literal (.word .upper), .literal (.word .upper),
    .literal (.word .upper), .literal (.word .upper), .literal .loopBegin,
    .literal (.word .lower), .literal (.word .lower), .literal .loopEnd, .literal .loopBegin]
  allowance := 0

theorem evaluate_eq_flat_openLoop :
    Context.fresh 2 = .ok { tape := .zeroed 2 } ∧
    { openLoop with allowance := 12 }.evaluate 13 {} 0 (openLoop.begin { tape := .zeroed 2 })
      = Flat.runFor openLoop 12 (Flat.begin openLoop { tape := .zeroed 2 }) ∧
    (Flat.runFor openLoop 12 (Flat.begin openLoop { tape := .zeroed 2 })).1 = .returned 9 :=
  ⟨rfl, (evaluate_eq_flat openLoop 2 _ rfl).1 12, by decide⟩

end Prairie
