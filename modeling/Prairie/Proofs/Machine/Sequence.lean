/-
  Prairie.Proofs.Machine.Sequence
  ───────────────────────────────
  **ONE PROGRAM BEHIND ANOTHER.**

  Let the brackets of `p` be balanced, and put a program `q` behind it:

      position         0 ..... |p|              |p| ..... |p| + |q|
      tokens           those of p               those of q
      open brackets    those of p,              those of q,
                       and at |p| none          each |p| further on

  As long as the run of `p` goes on, that of `p ++ q` goes on in step with it.
  Where the run of `p` is over, all its loops have been left, and behind it the
  run of `p ++ q` does, `|p|` positions further on, what a run of `q` does that
  starts where the run of `p` has come to:

      standing (p ++ q) k            =  standing p k              (p not over)
      standing (p ++ q) (steps + j)  =  resume q j, told behind p (p over)

  Tape, waiting word, output and step count are all carried over, so `q` may
  find a word waiting for its partner, and a step limit half used up.
-/
import Prairie.Proofs.Machine.Commentary

namespace Prairie

/-! ## §1. Two programs in one. -/

namespace Program

variable {p q : Program} {i : Nat}

/-- The program with the tokens of `q` behind those of `p`. -/
instance : Append Program where
  append p q := ⟨p.lexemes ++ q.lexemes⟩

/-- Nowhere have more brackets been closed than opened, and in the end as many
have been closed as opened. -/
def Balanced (p : Program) : Prop :=
  (∀ i ≤ p.size, 0 ≤ p.balance i) ∧ p.balance p.size = 0

instance (p : Program) : Decidable p.Balanced :=
  inferInstanceAs (Decidable ((∀ i ≤ p.size, 0 ≤ p.balance i) ∧ p.balance p.size = 0))

theorem tokens_append (p q : Program) : (p ++ q).tokens = p.tokens ++ q.tokens := by
  show (p.lexemes ++ q.lexemes).toList.map Lexeme.token = _
  rw [Array.toList_append, List.map_append]
  rfl

theorem size_append (p q : Program) : (p ++ q).size = p.size + q.size := by
  show (p.lexemes ++ q.lexemes).size = _
  rw [Array.size_append]
  rfl

theorem token?_append_left (q : Program) (h : i < p.size) :
    (p ++ q).token? i = p.token? i := by
  rw [← length_tokens] at h
  rw [token?_eq, token?_eq, tokens_append, List.getElem?_append_left h]

theorem token?_append_right (p q : Program) (i : Nat) :
    (p ++ q).token? (p.size + i) = q.token? i := by
  rw [token?_eq, token?_eq, tokens_append, ← length_tokens,
    List.getElem?_append_right (Nat.le_add_right _ _), Nat.add_sub_cancel_left]

/-- Up to the end of the first program its brackets stand open. -/
theorem enclosing_append_left (q : Program) (h : i ≤ p.size) :
    (p ++ q).enclosing i = p.enclosing i := by
  induction i with
  | zero => rfl
  | succ i ih =>
      have ht : (p ++ q).token? (id i) = p.token? i := token?_append_left q h
      have hrest : (p ++ q).enclosing (id i) = (p.enclosing i).map id := by
        rw [List.map_id]
        exact ih (Nat.le_of_succ_le h)
      have hnext := enclosing_succ_map ht hrest
      rw [List.map_id] at hnext
      exact hnext

theorem opener?_append_left (q : Program) (h : i < p.size) :
    (p ++ q).opener? i = p.opener? i := by
  have ht : (p ++ q).token? (id i) = p.token? i := token?_append_left q h
  have hopen : (p ++ q).enclosing (id i) = (p.enclosing i).map id := by
    rw [List.map_id]
    exact enclosing_append_left q (Nat.le_of_lt h)
  have hopener := opener?_map ht hopen
  rw [Option.map_id] at hopener
  exact hopener

/-- **At the end of a balanced program no bracket stands open.** -/
theorem Balanced.enclosing_size (h : p.Balanced) : p.enclosing p.size = [] := by
  -- Nothing in it closes what was never opened, so the balance counts.
  have hsound : ∀ j < p.size, ∀ f, ¬ p.Violates none j f := by
    intro j hj f hv
    cases hv with
    | closing closes none_open =>
        have hnext := h.1 (j + 1) hj
        rw [balance_succ_of_closes closes, none_open] at hnext
        omega
    | opening opens has_limit too_deep => cases has_limit
  have hlen := length_enclosing hsound
  rw [h.2] at hlen
  exact List.eq_nil_of_length_eq_zero (by omega)

/-- Behind a balanced program only brackets of the second one stand open. -/
theorem Balanced.enclosing_append (h : p.Balanced) (q : Program) (i : Nat) :
    (p ++ q).enclosing (p.size + i) = (q.enclosing i).map (p.size + ·) := by
  induction i with
  | zero =>
      show (p ++ q).enclosing p.size = []
      rw [enclosing_append_left q (Nat.le_refl _), h.enclosing_size]
  | succ i ih =>
      show (p ++ q).enclosing (p.size + i + 1) = _
      exact enclosing_succ_map (token?_append_right p q i) ih

theorem Balanced.opener?_append (h : p.Balanced) (q : Program) (i : Nat) :
    (p ++ q).opener? (p.size + i) = (q.opener? i).map (p.size + ·) :=
  opener?_map (token?_append_right p q i) (h.enclosing_append q i)

end Program

/-- The same setup with another program. -/
def Setup.running (e : Setup) (p : Program) : Setup := { e with program := p }

namespace Flat

variable {e : Setup} {q : Program} {s t : Flat} {token : Token} {k : Nat}

/-! ## §2. As long as the first program goes on. -/

/-- Only a jump back looks at the program, and it stays in the first one. -/
theorem step_append_left (q : Program) (hlt : s.position < e.program.size) :
    s.step (e.running (e.program ++ q)) token = s.step e token := by
  cases token with
  | comment text => rfl
  | literal l =>
      cases l with
      | word w => rfl
      | output => rfl
      | loopBegin => rfl
      | loopEnd =>
          have hopener : ((e.running (e.program ++ q)).program.opener? s.position).getD 0 + 1
              = (e.program.opener? s.position).getD 0 + 1 :=
            congrArg (·.getD 0 + 1) (Program.opener?_append_left q hlt)
          cases htests : s.tests with
          | nil => rw [step_unmatched _ htests, step_unmatched _ htests]
          | cons test tests =>
              by_cases hz : s.run.context.tape.cell test = 0
              · rw [step_leave _ htests hz, step_leave _ htests hz]
                rfl
              · rw [step_again htests hz hopener, step_again htests hz rfl]
                rfl

/-- What is due in the first program is due in both. -/
theorem Due.append_left (h : Due e s token) (q : Program) :
    Due (e.running (e.program ++ q)) s token := by
  refine ⟨?_, h.allowed⟩
  show (e.program ++ q).token? s.position = some token
  rw [Program.token?_append_left q (Program.lt_size_of_token? h.token_eq), h.token_eq]

theorem next?_append_left (h : next? e s = some t) (q : Program) :
    next? (e.running (e.program ++ q)) s = some t := by
  obtain ⟨token, hdue, hs⟩ := next?_eq_some_iff.mp h
  refine next?_eq_some_iff.mpr ⟨token, hdue.append_left q, ?_⟩
  rw [step_append_left q (Program.lt_size_of_token? hdue.token_eq), hs]

/-- **Every state of the first program is one of both.** -/
theorem after_append_left (q : Program) :
    ∀ {k : Nat} {t : Flat}, after e s k = some t →
      after (e.running (e.program ++ q)) s k = some t := by
  intro k
  induction k with
  | zero =>
      intro t h
      exact h
  | succ k ih =>
      intro t' h
      obtain ⟨t, ht, hn⟩ := after_succ_eq_some_iff.mp h
      exact after_succ_eq_some_iff.mpr ⟨t, ih ht, next?_append_left hn q⟩

/-- **A run that is not over does not look behind its program.** -/
theorem runFor_append_left (q : Program) (h : ∀ stop, (runFor e k s).1 ≠ .returned stop) :
    runFor (e.running (e.program ++ q)) k s = runFor e k s := by
  have hv := verdict e k s
  generalize runFor e k s = o at h hv ⊢
  cases hv with
  | suspended t token reached due =>
      exact runFor_of_due (after_append_left q reached) (due.append_left q)
  | finished j t le reached at_end => exact absurd rfl (h e.program.size)
  | refused j t token fault le reached token_eq refusal =>
      have hlt := Program.lt_size_of_token? token_eq
      have htoken : (e.running (e.program ++ q)).program.token? t.position = some token :=
        (Program.token?_append_left q hlt).trans token_eq
      obtain ⟨d, rfl⟩ := Nat.exists_eq_add_of_le le
      rw [runFor_add (after_append_left q reached)]
      exact runFor_of_refusal htoken refusal d
  | faulted j t token fault lt reached due error =>
      have hlt := Program.lt_size_of_token? due.token_eq
      have herror : t.step (e.running (e.program ++ q)) token = .error fault :=
        (step_append_left q hlt).trans error
      obtain ⟨d, rfl⟩ : ∃ d, k = j + (d + 1) := ⟨k - j - 1, by omega⟩
      rw [runFor_add (after_append_left q reached)]
      exact runFor_succ_of_error (due.append_left q).token_eq (due.append_left q).allowed herror d

/-- A token is passed at a time, so no run leaps over the end. -/
theorem position_le_size {c : Context} (h : after e (begin e c) k = some t) :
    t.position ≤ e.program.size := by
  refine (after_induction (P := fun t => t.position ≤ e.program.size ∧ Level e t)
    ⟨Nat.zero_le _, level_begin e c⟩ ?_ h).1
  intro u u' hu hn
  obtain ⟨token, hdue, hs⟩ := next?_eq_some_iff.mp hn
  have hlt := Program.lt_size_of_token? hdue.token_eq
  obtain ⟨hlevel, hnext⟩ := (step_ok hdue.token_eq hs).2.level hu.2
  exact ⟨by omega, hlevel⟩

/-- **Where a balanced program is over**, the run stands right behind it, and
every loop has been left. -/
theorem at_end_of_balanced {c : Context} (hp : e.program.Balanced)
    (h : after e (begin e c) k = some t) (hend : e.program.token? t.position = none) :
    t.position = e.program.size ∧ t.tests = [] := by
  have hposition : t.position = e.program.size :=
    Nat.le_antisymm (position_le_size h) (token?_eq_none_iff.mp hend)
  refine ⟨hposition, ?_⟩
  have hlevel : t.tests.length = (e.program.enclosing t.position).length := level_after h
  rw [hposition, hp.enclosing_size] at hlevel
  exact List.eq_nil_of_length_eq_zero hlevel

end Flat

/-! ## §3. The second program, told behind the first one. -/

/-- The action, `n` positions further on. -/
def Action.shift (n : Nat) : Action → Action
  | repeated test value start => repeated test value (n + start)
  | action => action

/-- The row, `n` positions further on. -/
def Row.shift (n : Nat) (row : Row) : Row :=
  { row with position := n + row.position, action := row.action.shift n }

/-- A run whose table was begun anew, told behind the rows of an earlier one and
`n` positions further on. -/
def Run.behind (rows : Array Row) (n : Nat) (r : Run) : Run :=
  { r with rows := rows ++ r.rows.map (Row.shift n) }

/-- The run with its table begun anew. -/
def Run.newTable (r : Run) : Run := { r with rows := #[] }

theorem Run.behind_newTable (r : Run) (n : Nat) : r.newTable.behind r.rows n = r := by
  show Run.mk r.context r.sent (r.rows ++ #[].map (Row.shift n)) r.canceled = _
  rw [Array.map_empty, Array.append_empty]

/-- The state of a second program, told behind a first one of `n` tokens. -/
def Flat.behind (rows : Array Row) (n : Nat) (s : Flat) : Flat :=
  s.translate (n + ·) (Run.behind rows n)

/-- A dispatched token leaves its row behind those of the first program. -/
theorem Setup.dispatch_behind {e : Setup} {p q : Program} {s : Flat} {rows : Array Row} {n : Nat}
    {token : Token} {action action' : Context → Context → Action} {effect : Context → Context}
    (h : ∀ c c', action' c c' = (action c c').shift n) :
    (e.running p).dispatch (s.behind rows n).position token action' effect (s.behind rows n).run
      = ((e.running q).dispatch s.position token action effect s.run).behind rows n := by
  unfold dispatch
  show (if e.traced then _ else _) = Run.behind rows n (if e.traced then _ else _)
  by_cases ht : e.traced = true
  · rw [if_pos ht, if_pos ht]
    show Run.mk _ _ ((rows ++ s.run.rows.map (Row.shift n)).push
      ⟨s.run.context.moment, n + s.position, token, action' s.run.context _⟩) _ = _
    rw [h]
    unfold Run.behind
    rw [Array.map_push, ← Array.push_append]
    rfl
  · rw [if_neg ht, if_neg ht]
    rfl

/-- Handing a byte over does not look at the table. -/
theorem Setup.send_behind (e : Setup) (r : Run) (rows : Array Row) (n : Nat) :
    e.send (r.behind rows n) = (e.send r).behind rows n := by
  unfold send
  split
  · rfl
  · split <;> rfl

namespace Flat

variable {e : Setup} {q : Program} {s : Flat} {token : Token}

/-- **A token of the second program does, further on, what it does alone.** -/
theorem step_behind (hp : e.program.Balanced) (rows : Array Row)
    (ht : q.token? s.position = some token) (hs : Level (e.running q) s) :
    (s.behind rows e.program.size).step (e.running (e.program ++ q)) token
      = ((s.step (e.running q) token).map (behind rows e.program.size)).mapError
          (Fault.renumber (e.program.size + ·)) := by
  generalize hn : e.program.size = n
  -- A state is told as another one if its position and its run are.
  have told {i i' : Nat} {tests : List Nat} {r r' : Run} (hposition : i' = n + i)
      (hrun : r' = r.behind rows n) :
      (Except.ok ⟨i', tests, r'⟩ : Except Fault Flat)
        = ((Except.ok ⟨i, tests, r⟩).map (behind rows n)).mapError (Fault.renumber (n + ·)) := by
    rw [hposition, hrun]
    rfl
  cases token with
  | comment text => exact told rfl (Setup.dispatch_behind fun _ _ => rfl)
  | literal l =>
      cases l with
      | word w =>
          refine told rfl (Setup.dispatch_behind fun c c' => ?_)
          unfold Action.ofWord
          split <;> rfl
      | output =>
          refine told rfl ?_
          rw [← Setup.send_behind]
          exact congrArg (Setup.send _) (Setup.dispatch_behind fun _ _ => rfl)
      | loopBegin =>
          -- No loop of the first program stands open, so the depth is the same.
          have hd' : (e.running (e.program ++ q)).depthExceeded? (s.behind rows n).tests.length
              = (e.running q).depthExceeded? s.tests.length := rfl
          cases hd : (e.running q).depthExceeded? s.tests.length with
          | some limit =>
              rw [step_tooDeep hd, step_tooDeep (hd'.trans hd)]
              rfl
          | none =>
              rw [step_enter hd, step_enter (hd'.trans hd)]
              exact told rfl (Setup.dispatch_behind fun _ _ => rfl)
      | loopEnd =>
          have htests' : (s.behind rows n).tests = s.tests := rfl
          cases htests : s.tests with
          | nil =>
              rw [step_unmatched _ htests, step_unmatched _ (htests'.trans htests)]
              rfl
          | cons test tests =>
              have hcell : (s.behind rows n).run.context.tape.cell test
                  = s.run.context.tape.cell test := rfl
              by_cases hz : s.run.context.tape.cell test = 0
              · rw [step_leave _ htests hz, step_leave _ (htests'.trans htests) (hcell.trans hz)]
                exact told rfl (Setup.dispatch_behind fun _ _ => rfl)
              · -- The stack is level, so there is a bracket to jump back to.
                obtain ⟨o, rest, henc⟩ := hs.enclosing_cons htests
                have ho : q.opener? s.position = some o := Program.opener?_of_enclosing ht henc
                have ho' : (e.program ++ q).opener? (n + s.position) = some (n + o) := by
                  rw [← hn, hp.opener?_append, ho]
                  rfl
                have hstart : ((e.running q).program.opener? s.position).getD 0 + 1 = o + 1 :=
                  congrArg (·.getD 0 + 1) ho
                have hstart' : ((e.running (e.program ++ q)).program.opener?
                    (s.behind rows n).position).getD 0 + 1 = n + (o + 1) :=
                  congrArg (·.getD 0 + 1) ho'
                rw [step_again htests hz hstart,
                  step_again (htests'.trans htests) (hcell ▸ hz) hstart']
                exact told rfl (Setup.dispatch_behind fun _ _ => rfl)

/-- What holds a run back is no matter of positions. -/
theorem refusal?_renumber (e : Setup) (r : Run) (f : Nat → Nat) :
    (e.refusal? r).map (Fault.renumber f) = e.refusal? r := by
  cases h : e.refusal? r with
  | none => rfl
  | some fault =>
      obtain ⟨rfl, -⟩ | ⟨limit, rfl⟩ := Setup.refusal?_cases h
      · rfl
      · rfl

/-- **The second program does, further on, what it does alone.** -/
theorem runFor_behind (hp : e.program.Balanced) (rows : Array Row) (hs : Level (e.running q) s)
    (k : Nat) :
    runFor (e.running (e.program ++ q)) k (s.behind rows e.program.size)
      = ((runFor (e.running q) k s).1.map (Fault.renumber (e.program.size + ·))
          (e.program.size + ·),
        (runFor (e.running q) k s).2.behind rows e.program.size) := by
  have htranslation : Translation (e.running q) (e.running (e.program ++ q))
      (e.program.size + ·) (Fault.renumber (e.program.size + ·))
      (Run.behind rows e.program.size) := by
    refine ⟨Program.token?_append_right e.program q, Program.size_append e.program q,
      fun r => ?_, fun _ => rfl⟩
    rw [refusal?_renumber]
    rfl
  -- The stack stays level with the brackets of `q`.
  exact runFor_translate htranslation fun i _ t token ht hdue =>
    step_behind hp rows hdue.token_eq (hs.after ht)

end Flat

/-! ## §4. Whole runs in sequence. -/

theorem Outcome.ending_map (o : Outcome) (f g : Nat → Nat) :
    (o.map (Fault.renumber f) g).ending = o.ending.renumber f := by
  cases o <;> rfl

namespace Setup

variable {e : Setup} {c : Context} {k : Nat}

/-- How the program stands, entered at its first token and in no loop, when it
goes on from where a run has come to and may dispatch `k` more tokens. -/
def resume (e : Setup) (r : Run) (k : Nat) : Outcome × Run :=
  { e with allowance := r.context.steps + k }.evaluate (r.context.steps + k + 1) {} 0 r

theorem resume_eq_runFor (e : Setup) (r : Run) (k : Nat) :
    e.resume r k = Flat.runFor e k { run := r } := Flat.evaluate_eq_runFor e r k

/-- A run that is not over stands as if nothing came behind its program. -/
theorem standing_append_left (hc : c.steps = 0) (q : Program)
    (h : ∀ stop, (e.standing c k).1 ≠ .returned stop) :
    (e.running (e.program ++ q)).standing c k = e.standing c k := by
  rw [standing_eq_runFor hc] at h ⊢
  rw [standing_eq_runFor hc]
  exact Flat.runFor_append_left q h

/-- **Where a balanced program is over, the next one goes on.** -/
theorem standing_append_right (hc : c.steps = 0) (hp : e.program.Balanced) (q : Program)
    {stop : Nat} {r : Run} (h : e.standing c k = (.returned stop, r)) (j : Nat) :
    (e.running (e.program ++ q)).standing c (r.context.steps + j)
      = (((e.running q).resume r.newTable j).1.map (Fault.renumber (e.program.size + ·))
          (e.program.size + ·),
        ((e.running q).resume r.newTable j).2.behind r.rows e.program.size) := by
  rw [standing_eq_runFor hc] at h
  have hv := Flat.verdict e k (Flat.begin e c)
  rw [h] at hv
  cases hv with
  | finished i t le reached at_end =>
      obtain ⟨hposition, htests⟩ := Flat.at_end_of_balanced hp reached at_end
      have hsteps : t.run.context.steps = i := by
        have h0 : (Flat.begin e c).run.context.steps = 0 := hc
        rw [Flat.steps_after reached, h0, Nat.zero_add]
      -- The state reached is the first one of `q`, told behind the program.
      have hfirst : t = Flat.behind t.run.rows e.program.size { run := t.run.newTable } := by
        show Flat.mk t.position t.tests t.run = Flat.mk _ _ (t.run.newTable.behind _ _)
        rw [hposition, htests, Run.behind_newTable]
        rfl
      have hlevel : Flat.Level (e.running q) { run := t.run.newTable } := rfl
      have hreached : Flat.after (e.running (e.program ++ q))
          (Flat.begin (e.running (e.program ++ q)) c) i = some t :=
        Flat.after_append_left q reached
      rw [hsteps, standing_eq_runFor hc, Flat.runFor_add hreached, resume_eq_runFor]
      exact (congrArg (Flat.runFor _ j) hfirst).trans (Flat.runFor_behind hp t.run.rows hlevel j)

end Setup

/-- The same machine with the tokens of `q` behind its own. -/
def Machine.followedBy (w : Machine) (q : Program) : Machine :=
  { w with program := w.program ++ q }

/-- **PROGRAMS BEHIND EACH OTHER RUN ONE AFTER THE OTHER.**  Let the brackets of
a machine's program be balanced, put any program `q` behind it, and let the run
be asked for in any way, under any limits.

As long as the program is not over, and when a fault has stopped it, the machine
with both programs tells the same and is left in the same context.

Once the program is over, in the run `r`, the machine with both goes on as `q`
does when it is entered in no loop with what `r` has come to: tape, waiting
word, output, step count and the flag.  Only positions are further on by the
length of the program: in the fault that may end the run, and in the rows of the
table, which stand behind those of `r`. -/
theorem append_runs_in_sequence (w : Machine) (q : Program) (request : Request)
    (hp : w.program.Balanced) :
    (∀ k, (w.perform request k).1.ending ≠ .finished →
      (w.followedBy q).perform request k
        = ((w.perform request k).1,
          { (w.perform request k).2 with program := w.program ++ q })) ∧
    ∀ c, Context.fresh w.settings.memorySize = .ok c →
      ∀ k stop r, (w.setup request 0).standing c k = (.returned stop, r) →
        w.perform request k = w.conclude request.traced (.returned stop, r) ∧
        ∀ j o, ((w.setup request 0).running q).resume r.newTable j = o →
          (w.followedBy q).perform request (r.context.steps + j)
            = ({ ending := o.1.ending.renumber (w.program.size + ·)
                 sent := o.2.sent
                 table := if request.traced then
                   some (r.rows ++ o.2.rows.map (Row.shift w.program.size)) else none },
              { w.followedBy q with context := o.2.context }) := by
  refine ⟨?_, ?_⟩
  · intro k hk
    cases hc : Context.fresh w.settings.memorySize with
    | error fault =>
        -- Without a tape there is no run of either of the two.
        rw [Machine.perform_eq_of_error hc]
        exact Machine.perform_eq_of_error (w := w.followedBy q) hc request k
    | ok c =>
        rw [Machine.perform_eq_conclude hc] at hk ⊢
        rw [Machine.perform_eq_conclude (w := w.followedBy q) hc]
        have hsame : ((w.followedBy q).setup request 0).standing c k
            = (w.setup request 0).standing c k := by
          refine Setup.standing_append_left (e := w.setup request 0)
            (Context.steps_of_fresh hc) q fun stop hstop => hk ?_
          show (Setup.standing _ c k).1.ending = _
          rw [hstop]
          rfl
        rw [hsame]
        rfl
  · intro c hc k stop r hr
    refine ⟨by rw [Machine.perform_eq_conclude hc, hr], fun j o ho => ?_⟩
    have hboth : ((w.followedBy q).setup request 0).standing c (r.context.steps + j)
        = (o.1.map (Fault.renumber (w.program.size + ·)) (w.program.size + ·),
          o.2.behind r.rows w.program.size) := by
      rw [← ho]
      exact Setup.standing_append_right (Context.steps_of_fresh hc) hp q hr j
    rw [Machine.perform_eq_conclude (w := w.followedBy q) hc, hboth]
    unfold Machine.conclude
    rw [Outcome.ending_map]
    rfl

/-- A loop that is run once, and a word that is left waiting. -/
def waitingWord : Machine where
  program := .ofTokens [.literal (.word .upper), .literal (.word .upper), .literal .loopBegin,
    .literal (.word .lower), .literal (.word .lower), .literal .loopEnd, .literal (.word .upper)]
  settings := { memorySize := 1 }

/-- A word that may find another one waiting, and a bracket too many. -/
def partnerAndClose : Program :=
  .ofTokens [.literal (.word .upper), .literal .output, .literal .loopEnd]

theorem append_runs_in_sequence_waitingWord :
    waitingWord.program.Balanced ∧
    (waitingWord.perform {} 6).1.ending = .suspended ∧
    ((waitingWord.followedBy partnerAndClose).perform {} 6).1.ending = .suspended ∧
    (waitingWord.perform {} 7).1.ending = .finished ∧
    (waitingWord.perform {} 7).2.context.pending = some .upper ∧
    ((waitingWord.followedBy partnerAndClose).perform {} 10).1.ending
      = .failed (.unmatchedLoopEnd 9) ∧
    ((waitingWord.followedBy partnerAndClose).perform {} 10).2.context.output = #[1] := by
  have hp : waitingWord.program.Balanced := by decide
  obtain ⟨hgoing, hover⟩ := append_runs_in_sequence waitingWord partnerAndClose {} hp
  have hsix : (waitingWord.perform {} 6).1.ending = .suspended := by decide
  have hsame := hgoing 6 (by rw [hsix]; decide)
  -- Seven tokens bring the first program to its end, three more the second one to its fault.
  have hstanding : (waitingWord.setup {} 0).standing { tape := .zeroed 1 } 7
      = (.returned 7, ((waitingWord.setup {} 0).standing { tape := .zeroed 1 } 7).2) :=
    Prod.ext (by decide) rfl
  have hsteps : ((waitingWord.setup {} 0).standing { tape := .zeroed 1 } 7).2.context.steps = 7 := by
    decide
  obtain ⟨-, hboth⟩ := hover _ rfl 7 7 _ hstanding
  have hten := hboth 3 _ rfl
  rw [hsteps] at hten
  refine ⟨hp, hsix, ?_, by decide, by decide, ?_, ?_⟩
  · rw [hsame]
    exact hsix
  · rw [hten]
    decide
  · rw [hten]
    decide

end Prairie
