/-
  Prairie.Proofs.Machine.History
  ──────────────────────────────
  **A RUN IS WHAT ITS TOKENS MADE OF IT.**

  What a dispatched token does to a context depends on that token and that
  context alone: where it stands, who watches the run and what may still hold
  it back have no say.  So the context of a run, wherever it has come to, is
  a fold over the tokens dispatched so far:

      context after at most `k` tokens  =  c.replay (e.history c k)

    • `Token.effect`, `Flat.step_run`  what one token does,
    • `Setup.history`                  the dispatched tokens, in their order,
    • `context_standing`               the equation above,
    • `prefix_output_standing`         the output of a run only grows,
    • `Setup.Quiet`                    when the flag cannot go up in a run,
    • `Machine.conclude`               what a machine tells of a run.
-/
import Prairie.Machine.Basic
import Prairie.Proofs.Machine.Trail

namespace Prairie

/-! ## §1. What a token does to a context. -/

/-- What dispatching a token does to a context, the counting apart.  Brackets
only move through the program, and comments do nothing at all. -/
def Token.effect : Token → Context → Context
  | .literal (.word w) => Context.read w
  | .literal .output => Context.emit
  | .literal .loopBegin => id
  | .literal .loopEnd => id
  | .comment _ => id

namespace Context

/-- Dispatch a token: carry out its effect and count it. -/
def dispatch (c : Context) (t : Token) : Context := (t.effect c).count

/-- Dispatch tokens one after the other. -/
def replay (c : Context) (ts : List Token) : Context := ts.foldl dispatch c

@[simp] theorem replay_nil (c : Context) : c.replay [] = c := rfl

@[simp] theorem replay_cons (c : Context) (t : Token) (ts : List Token) :
    c.replay (t :: ts) = (c.dispatch t).replay ts := rfl

@[simp] theorem replay_append (c : Context) (ts us : List Token) :
    c.replay (ts ++ us) = (c.replay ts).replay us :=
  List.foldl_append

@[simp] theorem steps_dispatch (c : Context) (t : Token) :
    (c.dispatch t).steps = c.steps + 1 := by
  show (t.effect c).steps + 1 = c.steps + 1
  cases t with
  | comment text => rfl
  | literal l =>
      cases l with
      | word w => rw [Token.effect, steps_read]
      | output => rfl
      | loopBegin => rfl
      | loopEnd => rfl

/-- Each token is counted once. -/
theorem steps_replay (c : Context) (ts : List Token) :
    (c.replay ts).steps = c.steps + ts.length := by
  induction ts generalizing c with
  | nil => rfl
  | cons t ts ih =>
      rw [replay_cons, ih, steps_dispatch, List.length_cons]
      omega

theorem read_of_idle {c : Context} (h : c.pending = none) (w : Word) :
    c.read w = { c with pending := some w } := by
  unfold read
  rw [h]
  rfl

theorem read_of_waiting {c : Context} {first : Word} (h : c.pending = some first) (w : Word) :
    c.read w = { c.apply (.ofPair first w) with pending := none } := by
  unfold read
  rw [h]
  rfl

/-- Reading a word outputs nothing. -/
@[simp] theorem output_read (w : Word) (c : Context) : (c.read w).output = c.output := by
  unfold read
  split <;> rfl

@[simp] theorem toList_output_emit (c : Context) :
    c.emit.output.toList = c.output.toList ++ [c.tape.current] := by
  simp [emit]

/-- Only an output token outputs. -/
theorem output_dispatch_of_ne {t : Token} (h : t ≠ .literal .output) (c : Context) :
    (c.dispatch t).output = c.output := by
  show (t.effect c).output = c.output
  cases t with
  | comment text => rfl
  | literal l =>
      cases l with
      | word w => exact output_read w c
      | output => exact absurd rfl h
      | loopBegin => rfl
      | loopEnd => rfl

theorem prefix_output_dispatch (c : Context) (t : Token) :
    c.output.toList <+: (c.dispatch t).output.toList := by
  by_cases h : t = .literal .output
  · subst h
    show c.output.toList <+: c.emit.output.toList
    rw [toList_output_emit]
    exact List.prefix_append _ _
  · exact ⟨[], by rw [List.append_nil, output_dispatch_of_ne h]⟩

/-- What has been output stays output. -/
theorem prefix_output_replay (c : Context) (ts : List Token) :
    c.output.toList <+: (c.replay ts).output.toList := by
  induction ts generalizing c with
  | nil => exact List.prefix_rfl
  | cons t ts ih => exact (prefix_output_dispatch c t).trans (ih (c.dispatch t))

end Context

namespace Flat

variable {e : Setup} {s s' t : Flat} {token : Token} {k : Nat}

/-- **What a step does to a run**: it dispatches the token, and an output
token then hands its byte on. -/
theorem step_run (h : s.step e token = .ok s') :
    (token ≠ .literal .output ∧
      ∃ action, s'.run = e.dispatch s.position token action token.effect s.run) ∨
    (token = .literal .output ∧
      ∃ action, s'.run = e.send (e.dispatch s.position token action token.effect s.run)) := by
  unfold step at h
  split at h
  next text =>
      injection h with h
      subst h
      exact .inl ⟨by simp, fun _ _ => .comment, rfl⟩
  next w =>
      injection h with h
      subst h
      exact .inl ⟨by simp, Action.ofWord w, rfl⟩
  next =>
      injection h with h
      subst h
      exact .inr ⟨rfl, fun c _ => .output c.tape.current, rfl⟩
  next =>
      split at h
      next => cases h
      next =>
          injection h with h
          subst h
          exact .inl ⟨by simp, fun c _ => .entered c.tape.head, rfl⟩
  next =>
      split at h
      next => cases h
      next test tests htests =>
          split at h
          next =>
              injection h with h
              subst h
              exact .inl ⟨by simp, fun _ _ => .exited test, rfl⟩
          next =>
              injection h with h
              subst h
              exact .inl ⟨by simp, fun c _ => .repeated test (c.tape.cell test) _, rfl⟩

/-- A step dispatches its token in the context. -/
theorem context_step (h : s.step e token = .ok s') :
    s'.run.context = s.run.context.dispatch token := by
  rcases step_run h with ⟨-, action, h⟩ | ⟨-, action, h⟩
  · rw [h, Setup.context_dispatch]
    rfl
  · rw [h, Setup.context_send, Setup.context_dispatch]
    rfl

/-- A token that fails a step is counted and has no effect. -/
theorem context_fail {fault : Fault} (ht : e.program.token? s.position = some token)
    (h : s.step e token = .error fault) :
    (s.run.fail fault).2.context = s.run.context.dispatch token := by
  rcases step_error ht h with ⟨hc, -, -⟩ | ⟨ho, -⟩
  · rw [Program.Closes, ht] at hc
    injection hc with hc
    rw [hc]
    rfl
  · rw [Program.Opens, ht] at ho
    injection ho with ho
    rw [ho]
    rfl

/-- A run that goes on by one token dispatches it in its context. -/
theorem context_runFor_succ (h : after e s k = some t) (hdue : Due e t token) :
    (runFor e (k + 1) s).2.context = (runFor e k s).2.context.dispatch token := by
  rw [runFor_of_due h hdue, runFor_add h 1]
  cases hs : t.step e token with
  | error fault =>
      rw [runFor_succ_of_error hdue.token_eq hdue.allowed hs]
      exact context_fail hdue.token_eq hs
  | ok t' =>
      rw [runFor_succ_of_ok hdue.token_eq hdue.allowed hs, run_runFor_zero]
      exact context_step hs

end Flat

/-! ## §2. The tokens of a run. -/

namespace Setup

variable {e : Setup} {c : Context}

/-- The tokens that a run has dispatched when it may dispatch `k`. -/
def history (e : Setup) (c : Context) (k : Nat) : List Token :=
  (List.range k).filterMap fun j => (e.due? c j).bind e.program.token?

@[simp] theorem history_zero (e : Setup) (c : Context) : e.history c 0 = [] := rfl

theorem history_succ (e : Setup) (c : Context) (k : Nat) :
    e.history c (k + 1) = e.history c k ++ ((e.due? c k).bind e.program.token?).toList := by
  rw [history, List.range_succ, List.filterMap_append]
  rfl

/-- A state that is due a token enters it into the history. -/
theorem history_succ_of_due (hc : c.steps = 0) {k : Nat} {t : Flat} {token : Token}
    (h : Flat.after e (Flat.begin e c) k = some t) (hdue : Flat.Due e t token) :
    e.history c (k + 1) = e.history c k ++ [token] := by
  have hlast := (due?_eq_some_iff hc).mpr ⟨t, token, h, hdue, rfl⟩
  rw [history_succ, hlast, Option.bind_some, hdue.token_eq]
  rfl

/-- A run that is over enters nothing more. -/
theorem history_of_over (hc : c.steps = 0) {j k : Nat}
    (hover : (e.standing c j).1.ending ≠ .suspended) (hle : j ≤ k) :
    e.history c k = e.history c j := by
  induction hle with
  | refl => rfl
  | @step k hle ih =>
      have hstand := standing_eq_of_over hc hover (Nat.le_trans (e.steps_standing_le hc j) hle)
      have hnone : e.due? c k = none := due?_eq_none_iff.mpr (by rw [hstand]; exact hover)
      rw [history_succ, ih, hnone, Option.bind_none, Option.toList_none, List.append_nil]

/-- A history only grows. -/
theorem prefix_history (e : Setup) (c : Context) {j k : Nat} (h : j ≤ k) :
    e.history c j <+: e.history c k := by
  induction h with
  | refl => exact List.prefix_rfl
  | step h ih =>
      rw [history_succ]
      exact ih.trans (List.prefix_append _ _)

/-- **The context of a run is what its tokens made of it.** -/
theorem context_standing (hc : c.steps = 0) (k : Nat) :
    (e.standing c k).2.context = c.replay (e.history c k) := by
  induction k with
  | zero =>
      rw [standing_eq_runFor hc, Flat.run_runFor_zero, history_zero, Context.replay_nil]
      rfl
  | succ k ih =>
      rw [history_succ, Context.replay_append, ← ih]
      cases hdue : e.due? c k with
      | none =>
          have hle := Nat.le_succ_of_le (e.steps_standing_le hc k)
          rw [standing_eq_of_over hc (due?_eq_none_iff.mp hdue) hle]
          rfl
      | some i =>
          obtain ⟨t, token, ht, hd, rfl⟩ := (due?_eq_some_iff hc).mp hdue
          rw [Option.bind_some, hd.token_eq, standing_eq_runFor hc, standing_eq_runFor hc]
          exact Flat.context_runFor_succ ht hd

/-- The output of a run only grows. -/
theorem prefix_output_standing (hc : c.steps = 0) {j k : Nat} (h : j ≤ k) :
    (e.standing c j).2.context.output.toList <+: (e.standing c k).2.context.output.toList := by
  obtain ⟨ts, hts⟩ := e.prefix_history c h
  rw [context_standing hc, context_standing hc, ← hts, Context.replay_append]
  exact Context.prefix_output_replay _ ts

end Setup

/-! ## §3. The flag. -/

/-- Nobody raises the flag during a run: the run is traced and hands nothing
over, or there is no listener that would. -/
def Setup.Quiet (e : Setup) : Prop :=
  e.traced = true ∨ ∀ l, e.listener = some l → l.cancelAfter = none

namespace Setup

variable {e : Setup} {c : Context}

@[simp] theorem canceled_dispatch (e : Setup) (position : Nat) (token : Token)
    (action : Context → Context → Action) (effect : Context → Context) (r : Run) :
    (e.dispatch position token action effect r).canceled = r.canceled := by
  unfold dispatch
  split <;> rfl

theorem Quiet.canceled_send (h : e.Quiet) (r : Run) : (e.send r).canceled = r.canceled := by
  unfold send
  split
  next => rfl
  next hno =>
      split
      next => rfl
      next l hl =>
          have hnever := h.resolve_left hno l hl
          simp [Run.hand, hnever]

/-- The flag stays as it is in a run in which nobody raises it. -/
theorem Quiet.canceled_runFor (h : e.Quiet) (k : Nat) (s : Flat) :
    (Flat.runFor e k s).2.canceled = s.run.canceled := by
  refine Flat.runFor_induction (P := fun r => r.canceled = s.run.canceled) rfl ?_ ?_ k
  · intro t t' ht hn
    obtain ⟨token, -, hs⟩ := Flat.next?_eq_some_iff.mp hn
    rcases Flat.step_run hs with ⟨-, action, hr⟩ | ⟨-, action, hr⟩
    · rw [hr, canceled_dispatch, ht]
    · rw [hr, h.canceled_send, canceled_dispatch, ht]
  · intro r hr
    exact hr

theorem Quiet.canceled_standing (h : e.Quiet) (hc : c.steps = 0) (k : Nat) :
    (e.standing c k).2.canceled = e.control.any Control.canceled := by
  rw [standing_eq_runFor hc]
  exact h.canceled_runFor k _

end Setup

/-! ## §4. What a machine tells of a run. -/

namespace Machine

/-- What a machine tells of a run that came to a stop, and what is left of it. -/
def conclude (w : Machine) (traced : Bool) (o : Outcome × Run) : Account × Machine :=
  ({ ending := o.1.ending, sent := o.2.sent, table := if traced then some o.2.rows else none },
    { w with context := o.2.context })

/-- A machine that cannot have its tape stays as it was. -/
theorem perform_eq_of_error {w : Machine} {fault : Fault}
    (h : Context.fresh w.settings.memorySize = .error fault) (q : Request) (k : Nat) :
    w.perform q k = ({ ending := .failed fault }, w) := by
  unfold perform
  rw [h]

/-- A machine that can have its tape tells how its run stands. -/
theorem perform_eq_conclude {w : Machine} {c : Context}
    (hc : Context.fresh w.settings.memorySize = .ok c) (q : Request) (k : Nat) :
    w.perform q k = w.conclude q.traced ((w.setup q 0).standing c k) := by
  unfold perform
  rw [hc]
  rfl

/-- A run that came to its end within `j` tokens is told alike when it may
dispatch more. -/
theorem perform_eq_of_over {w : Machine} {q : Request} {j k : Nat}
    (hover : (w.perform q j).1.ending ≠ .suspended) (hle : j ≤ k) :
    w.perform q k = w.perform q j := by
  cases hc : Context.fresh w.settings.memorySize with
  | error fault => rw [perform_eq_of_error hc, perform_eq_of_error hc]
  | ok c =>
      have h0 := Context.steps_of_fresh hc
      rw [perform_eq_conclude hc] at hover
      rw [perform_eq_conclude hc, perform_eq_conclude hc,
        Setup.standing_eq_of_over h0 hover (Nat.le_trans (Setup.steps_standing_le _ h0 j) hle)]

end Machine

end Prairie
