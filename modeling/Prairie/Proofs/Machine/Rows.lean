/-
  Prairie.Proofs.Machine.Rows
  ───────────────────────────
  **THE STEP TABLE REPLAYS THE RUN.**

  A traced run enters a row for each token that it dispatches, with what it
  knew just before and what the token then did.  Read from the top, the rows
  are the run once more:

      row j     step j, the token that is due after `j` others, and the head
                and the cell under it in the context after `j` tokens
      row j+1   stands where the action of row `j` leads, on the cell and
                with the value that the action names

  One token gets no row: the one whose bracket breaks the nesting.  It is
  counted, fails, and ends the run.  What the line of a row says is what the
  row knows (`Row.printed_iff`, `Row.render_inj`).

    • `step_row`        the row that one token enters,
    • `tabled_after`    the rows of all tokens so far, by number,
    • `Tells.leads`     what an action says is what comes next,
    • `bytes_after`     the output rows carry the output.
-/
import Prairie.Proofs.Machine.Nesting
import Prairie.Proofs.Machine.History
import Prairie.Proofs.Machine.Printed

namespace Prairie

/-! ## §1. What an action says. -/

namespace Action

/-- What the action entered for a token at `position` of `p` says, when the
token is dispatched in the context `before`. -/
inductive Tells (p : Program) (position : Nat) (before : Context) : Token → Action → Prop where
  | comment (text : String) : Tells p position before (.comment text) .comment
  | waited (w : Word) (idle : before.pending = none) :
      Tells p position before (.literal (.word w)) (.waited w)
  | incremented (paired : before.pending = some .upper) :
      Tells p position before (.literal (.word .upper))
        (.incremented before.tape.head before.tape.current
          (before.tape.apply .increment).current)
  | decremented (paired : before.pending = some .lower) :
      Tells p position before (.literal (.word .lower))
        (.decremented before.tape.head before.tape.current
          (before.tape.apply .decrement).current)
  | advanced (paired : before.pending = some .lower) :
      Tells p position before (.literal (.word .upper)) (.moved (before.tape.apply .advance).head)
  | retreated (paired : before.pending = some .upper) :
      Tells p position before (.literal (.word .lower)) (.moved (before.tape.apply .retreat).head)
  | output : Tells p position before (.literal .output) (.output before.tape.current)
  | entered : Tells p position before (.literal .loopBegin) (.entered before.tape.head)
  | exited (test : Nat) (cell_eq : before.tape.cell test = 0) :
      Tells p position before (.literal .loopEnd) (.exited test)
  | repeated (test opener : Nat) (cell_ne : before.tape.cell test ≠ 0)
      (closes : p.Matches opener position) :
      Tells p position before (.literal .loopEnd)
        (.repeated test (before.tape.cell test) (opener + 1))

/-- Where the token behind the one at `position` stands. -/
def next (position : Nat) : Action → Nat
  | .repeated _ _ start => start
  | _ => position + 1

/-- The head and the cell under it go on as the action says: a change is from
the one value to the other on the cell it names, a move is to the index it
names, and any other action leaves both alone. -/
def Leads (before after : Moment) : Action → Prop
  | .incremented index old new | .decremented index old new =>
      before.head = index ∧ before.cell = old ∧ after.head = index ∧ after.cell = new
  | .moved index => after.head = index
  | _ => after.head = before.head ∧ after.cell = before.cell

/-- The byte that an action outputs, if it does. -/
def byte? : Action → Option UInt8
  | .output byte => some byte
  | _ => none

variable {p : Program} {position : Nat} {before : Context} {token : Token} {a : Action}

/-- The action entered for a word says what the word did. -/
theorem tells_ofWord (p : Program) (position : Nat) (w : Word) (before : Context) :
    (ofWord w before (before.read w)).Tells p position before (.literal (.word w)) := by
  cases hp : before.pending with
  | none =>
      have hword : ofWord w before (before.read w) = .waited w := by
        unfold ofWord
        rw [hp]
        rfl
      rw [hword]
      exact .waited w hp
  | some first =>
      rw [Context.read_of_waiting hp]
      unfold ofWord
      rw [hp]
      cases first <;> cases w
      · exact .incremented hp
      · exact .retreated hp
      · exact .advanced hp
      · exact .decremented hp

/-- **What an action says is what comes next.** -/
theorem Tells.leads (h : a.Tells p position before token) :
    a.Leads before.moment (before.dispatch token).moment := by
  -- Only a word that completes a pair changes the tape.
  have pair (first w : Word) (hp : before.pending = some first) :
      (before.dispatch (.literal (.word w))).tape = before.tape.apply (.ofPair first w) := by
    show (before.read w).tape = _
    rw [Context.read_of_waiting hp]
    rfl
  cases h with
  | comment text => exact ⟨rfl, rfl⟩
  | waited w idle =>
      have htape : (before.dispatch (.literal (.word w))).tape = before.tape := by
        show (before.read w).tape = _
        rw [Context.read_of_idle idle]
      show (before.dispatch _).tape.head = _ ∧ (before.dispatch _).tape.current = _
      rw [htape]
      exact ⟨rfl, rfl⟩
  | incremented paired =>
      refine ⟨rfl, rfl, ?_, ?_⟩
      · show (before.dispatch _).tape.head = _
        rw [pair .upper .upper paired]
        rfl
      · show (before.dispatch _).tape.current = _
        rw [pair .upper .upper paired]
        rfl
  | decremented paired =>
      refine ⟨rfl, rfl, ?_, ?_⟩
      · show (before.dispatch _).tape.head = _
        rw [pair .lower .lower paired]
        rfl
      · show (before.dispatch _).tape.current = _
        rw [pair .lower .lower paired]
        rfl
  | advanced paired =>
      show (before.dispatch _).tape.head = _
      rw [pair .lower .upper paired]
      rfl
  | retreated paired =>
      show (before.dispatch _).tape.head = _
      rw [pair .upper .lower paired]
      rfl
  | output => exact ⟨rfl, rfl⟩
  | entered => exact ⟨rfl, rfl⟩
  | exited test cell_eq => exact ⟨rfl, rfl⟩
  | repeated test opener cell_ne closes => exact ⟨rfl, rfl⟩

/-- An action outputs what its token adds to the output. -/
theorem Tells.output_eq (h : a.Tells p position before token) :
    (before.dispatch token).output.toList = before.output.toList ++ a.byte?.toList := by
  -- Any token but the output mark leaves the output alone.
  have silent (hne : token ≠ .literal .output) (hbyte : a.byte? = none) :
      (before.dispatch token).output.toList = before.output.toList ++ a.byte?.toList := by
    rw [Context.output_dispatch_of_ne hne, hbyte, Option.toList_none, List.append_nil]
  cases h with
  | output => exact Context.toList_output_emit before
  | comment text => exact silent (by simp) rfl
  | waited w idle => exact silent (by simp) rfl
  | incremented paired => exact silent (by simp) rfl
  | decremented paired => exact silent (by simp) rfl
  | advanced paired => exact silent (by simp) rfl
  | retreated paired => exact silent (by simp) rfl
  | entered => exact silent (by simp) rfl
  | exited test cell_eq => exact silent (by simp) rfl
  | repeated test opener cell_ne closes => exact silent (by simp) rfl

end Action

/-! ## §2. The row of one token. -/

namespace Setup

variable {e : Setup}

/-- A traced run enters each token that it dispatches. -/
theorem rows_dispatch_of_traced (h : e.traced = true) (position : Nat) (token : Token)
    (action : Context → Context → Action) (effect : Context → Context) (r : Run) :
    (e.dispatch position token action effect r).rows
      = r.rows.push ⟨r.context.moment, position, token, action r.context (effect r.context)⟩ := by
  unfold dispatch
  rw [if_pos h]

@[simp] theorem rows_send (e : Setup) (r : Run) : (e.send r).rows = r.rows := by
  unfold send
  split
  · rfl
  · split <;> rfl

end Setup

namespace Flat

variable {e : Setup} {s t u v : Flat} {token : Token} {i j k : Nat}

/-- **The row that a token enters**, and where it leads. -/
theorem step_row (htraced : e.traced = true)
    (hopen : e.program.Closes s.position → s.tests ≠ [] →
      ∃ o, e.program.opener? s.position = some o)
    (ht : e.program.token? s.position = some token) (h : s.step e token = .ok t) :
    ∃ action : Action, action.Tells e.program s.position s.run.context token ∧
      t.run.rows = s.run.rows.push ⟨s.run.context.moment, s.position, token, action⟩ ∧
      t.position = action.next s.position := by
  unfold step at h
  split at h
  next text =>
      injection h with h
      subst h
      exact ⟨.comment, .comment text, Setup.rows_dispatch_of_traced htraced .., rfl⟩
  next w =>
      injection h with h
      subst h
      refine ⟨_, Action.tells_ofWord _ _ w s.run.context,
        Setup.rows_dispatch_of_traced htraced .., ?_⟩
      -- No word leads back.
      show s.position + 1 = _
      unfold Action.ofWord
      split <;> rfl
  next =>
      injection h with h
      subst h
      refine ⟨_, .output, ?_, rfl⟩
      show (e.send _).rows = _
      rw [Setup.rows_send, Setup.rows_dispatch_of_traced htraced]
  next =>
      split at h
      next => cases h
      next =>
          injection h with h
          subst h
          exact ⟨_, .entered, Setup.rows_dispatch_of_traced htraced .., rfl⟩
  next =>
      split at h
      next => cases h
      next test tests htests =>
          split at h
          next hz =>
              injection h with h
              subst h
              exact ⟨_, .exited test hz, Setup.rows_dispatch_of_traced htraced .., rfl⟩
          next hz =>
              injection h with h
              subst h
              obtain ⟨o, ho⟩ := hopen ht (by simp [htests])
              have hstart : (e.program.opener? s.position).getD 0 + 1 = o + 1 := by rw [ho]; rfl
              have hmatch := Program.opener?_eq_some_iff.mp ho
              refine ⟨_, .repeated test o hz hmatch, ?_, hstart⟩
              show (e.dispatch ..).rows = _
              rw [Setup.rows_dispatch_of_traced htraced, hstart]

/-! ## §3. The rows of all tokens. -/

/-- The row `a` is that of the `j`-th token that a run from `s` dispatches. -/
structure Entry (e : Setup) (s : Flat) (j : Nat) (a : Row) (u v : Flat) : Prop where
  reached : after e s j = some u
  due : Due e u a.token
  onward : after e s (j + 1) = some v
  context_eq : v.run.context = u.run.context.dispatch a.token
  moment_eq : a.moment = u.run.context.moment
  position_eq : a.position = u.position
  tells : a.action.Tells e.program u.position u.run.context a.token
  next_eq : v.position = a.action.next u.position

/-- The rows are those of the first `k` tokens that a run from `s` dispatches. -/
structure Tabled (e : Setup) (s : Flat) (k : Nat) (rows : Array Row) : Prop where
  size_eq : rows.size = k
  entry : ∀ j a, rows[j]? = some a → ∃ u v, Entry e s j a u v

/-- **One more token enters one more row.** -/
theorem Tabled.push {rows : Array Row} {a : Row} (h : Tabled e s k rows)
    (ha : Entry e s k a u v) : Tabled e s (k + 1) (rows.push a) := by
  refine ⟨by rw [Array.size_push, h.size_eq], fun j b hj => ?_⟩
  rw [Array.getElem?_push, h.size_eq] at hj
  split at hj
  next hjk =>
      injection hj with hj
      subst hjk hj
      exact ⟨u, v, ha⟩
  next => exact h.entry j b hj

/-- **The rows of a run are those of its tokens**, from the first on. -/
theorem tabled_after {c : Context} (htraced : e.traced = true) :
    ∀ {k : Nat} {t : Flat}, after e (begin e c) k = some t →
      Tabled e (begin e c) k t.run.rows := by
  intro k
  induction k with
  | zero =>
      intro t h
      injection h with h
      subst h
      exact ⟨rfl, fun j a hj => by cases hj⟩
  | succ k ih =>
      intro t' h
      obtain ⟨t, ht, hn⟩ := after_succ_eq_some_iff.mp h
      obtain ⟨token, hdue, hs⟩ := next?_eq_some_iff.mp hn
      have hopen := fun hc hne => exists_opener ht hc hne
      obtain ⟨action, htells, hrows, hnext⟩ := step_row htraced hopen hdue.token_eq hs
      rw [hrows]
      exact (ih ht).push ⟨ht, hdue, h, context_step hs, rfl, rfl, htells, hnext⟩

/-- A run that gets as far as `i` has been wherever there is less behind it. -/
theorem exists_after_of_le (hle : j ≤ i) (h : after e s i = some t) :
    ∃ u, after e s j = some u := by
  induction hle generalizing t with
  | refl => exact ⟨t, h⟩
  | step _ ih =>
      obtain ⟨u, hu, -⟩ := after_succ_eq_some_iff.mp h
      exact ih hu

/-- No token is dispatched behind a state that does not go on. -/
theorem le_of_stuck (hj : after e s j = some t) (hstuck : next? e t = none)
    (hi : after e s i = some u) : i ≤ j := by
  refine Nat.le_of_not_lt fun hlt => ?_
  obtain ⟨v, hv⟩ := exists_after_of_le hlt hi
  rw [after, hj, Option.bind_some, hstuck] at hv
  cases hv

/-- A state that is due no token does not go on. -/
theorem next?_eq_none_of_not_due (h : ∀ token, ¬ Due e t token) : next? e t = none := by
  rw [Option.eq_none_iff_forall_ne_some]
  intro v hv
  obtain ⟨token, hdue, -⟩ := next?_eq_some_iff.mp hv
  exact h token hdue

/-- A state whose token fails does not go on. -/
theorem next?_eq_none_of_error {fault : Fault} (hdue : Due e t token)
    (hs : t.step e token = .error fault) : next? e t = none := by
  unfold next?
  simp only [hdue.token_eq, hdue.allowed, hs]
  rfl

theorem not_due_of_end (hend : e.program.token? t.position = none) : ¬ Due e t token := by
  intro h
  have htoken := h.token_eq
  rw [hend] at htoken
  cases htoken

/-- **The output rows carry the output.** -/
theorem bytes_after {c : Context} (htraced : e.traced = true) (h0 : c.output = #[]) :
    ∀ {k : Nat} {t : Flat}, after e (begin e c) k = some t →
      t.run.rows.toList.filterMap (fun a => a.action.byte?) = t.run.context.output.toList := by
  intro k
  induction k with
  | zero =>
      intro t h
      injection h with h
      subst h
      show [] = c.output.toList
      rw [h0]
  | succ k ih =>
      intro t' h
      obtain ⟨t, ht, hn⟩ := after_succ_eq_some_iff.mp h
      obtain ⟨token, hdue, hs⟩ := next?_eq_some_iff.mp hn
      have hopen := fun hc hne => exists_opener ht hc hne
      obtain ⟨action, htells, hrows, -⟩ := step_row htraced hopen hdue.token_eq hs
      rw [hrows, context_step hs, htells.output_eq, Array.toList_push, List.filterMap_append,
        ih ht]
      cases hb : action.byte? <;> simp [hb]

end Flat

/-! ## §4. The table of a run. -/

/-- The run ended because the bracket at `position` breaks the nesting. -/
def Ending.BreaksAt (position : Nat) (ending : Ending) : Prop :=
  ending = .failed (.unmatchedLoopEnd position) ∨
    ∃ limit, ending = .failed (.loopDepthExceeded position limit)

/-- A run ends at one token. -/
theorem Ending.BreaksAt.unique {i j : Nat} {ending : Ending} (hi : ending.BreaksAt i)
    (hj : ending.BreaksAt j) : i = j := by
  rcases hi with rfl | ⟨l, rfl⟩ <;> rcases hj with hj | ⟨l', hj⟩
  · injection hj with hj
    injection hj
  · injection hj with hj
    cases hj
  · injection hj with hj
    cases hj
  · injection hj with hj
    injection hj

namespace Flat

variable {e : Setup} {s t u : Flat} {token : Token} {fault : Fault} {i j k : Nat}

/-- A token that fails is a bracket that breaks the nesting. -/
theorem breaksAt_of_error (hdue : Due e t token) (hs : t.step e token = .error fault) :
    Ending.BreaksAt t.position (.failed fault) := by
  rcases step_error hdue.token_eq hs with ⟨-, -, rfl⟩ | ⟨-, l, -, -, rfl⟩
  · exact .inl rfl
  · exact .inr ⟨l, rfl⟩

/-- What the table of a run of at most `k` tokens holds, and what it leaves out. -/
structure Recorded (e : Setup) (s : Flat) (k : Nat) (o : Outcome × Run) : Prop where
  tabled : Tabled e s o.2.rows.size o.2.rows
  size_le : o.2.rows.size ≤ k
  complete : ∀ j < k, ∀ t token, after e s j = some t → Due e t token →
    j < o.2.rows.size ∨ (j = o.2.rows.size ∧ o.1.ending.BreaksAt t.position)
  omitted : ∀ i, o.1.ending.BreaksAt i →
    ∃ t token, after e s o.2.rows.size = some t ∧ Due e t token ∧ t.position = i
  bytes : o.2.rows.toList.filterMap (fun a => a.action.byte?) = o.2.context.output.toList

/-- A run that stopped behind its `j`-th token has a row for each of them. -/
theorem recorded_of_stopped {c : Context} {outcome : Outcome} (htraced : e.traced = true)
    (h0 : c.output = #[]) (hj : after e (begin e c) j = some t) (hle : j ≤ k)
    (hlast : j = k ∨ ∀ token, ¬ Due e t token)
    (hending : ∀ i, ¬ outcome.ending.BreaksAt i) :
    Recorded e (begin e c) k (outcome, t.run) := by
  have htab := tabled_after htraced hj
  refine ⟨htab.size_eq.symm ▸ htab, by rw [htab.size_eq]; exact hle, ?_, ?_,
    bytes_after htraced h0 hj⟩
  · intro i hi u token hu hdue
    rw [htab.size_eq]
    refine .inl ?_
    rcases hlast with rfl | hover
    · exact hi
    · have hij := le_of_stuck hj (next?_eq_none_of_not_due hover) hu
      refine Nat.lt_of_le_of_ne hij ?_
      rintro rfl
      rw [hj] at hu
      injection hu with hu
      exact hover token (hu ▸ hdue)
  · intro i hi
    exact absurd hi (hending i)

/-- **The table of a run holds its tokens**, but for one that breaks the
nesting. -/
theorem recorded_runFor {c : Context} (htraced : e.traced = true) (h0 : c.output = #[])
    (k : Nat) : Recorded e (begin e c) k (runFor e k (begin e c)) := by
  have hv := verdict e k (begin e c)
  generalize runFor e k (begin e c) = o at hv ⊢
  cases hv with
  | suspended t token reached due =>
      refine recorded_of_stopped htraced h0 reached (Nat.le_refl _) (.inl rfl) ?_
      rintro i (h | ⟨l, h⟩) <;> cases h
  | finished j t le reached at_end =>
      refine recorded_of_stopped htraced h0 reached le (.inr fun token => ?_) ?_
      · exact not_due_of_end at_end
      · rintro i (h | ⟨l, h⟩) <;> cases h
  | refused j t token fault le reached token_eq refusal =>
      refine recorded_of_stopped htraced h0 reached le (.inr fun token' hdue => ?_) ?_
      · have hallowed := hdue.allowed
        rw [refusal] at hallowed
        cases hallowed
      · -- The reins know nothing of brackets.
        rcases Setup.refusal?_cases refusal with ⟨rfl, -⟩ | ⟨limit, rfl⟩
        · rintro i (h | ⟨l, h⟩) <;> cases h
        · rintro i (h | ⟨l, h⟩) <;> cases h
  | faulted j t token fault lt reached due error =>
      have htab := tabled_after htraced reached
      have hbreaks := breaksAt_of_error due error
      have hstuck := next?_eq_none_of_error due error
      refine ⟨htab.size_eq.symm ▸ htab, ?_, ?_, ?_, bytes_after htraced h0 reached⟩
      · show t.run.rows.size ≤ k
        rw [htab.size_eq]
        exact Nat.le_of_lt lt
      · intro i _ u token' hu hdue
        show i < t.run.rows.size ∨ (i = t.run.rows.size ∧ _)
        rw [htab.size_eq]
        rcases Nat.eq_or_lt_of_le (le_of_stuck reached hstuck hu) with rfl | hlt
        · rw [reached] at hu
          injection hu with hu
          subst hu
          exact .inr ⟨rfl, hbreaks⟩
        · exact .inl hlt
      · intro i hi
        show ∃ u token', after e (begin e c) t.run.rows.size = some u ∧ _
        rw [htab.size_eq]
        exact ⟨t, token, reached, due, hbreaks.unique hi⟩

end Flat

namespace Setup

variable {e : Setup} {c : Context} {j k : Nat} {a b : Row}

/-- Where a run stands behind a token that is entered in its table. -/
theorem standing_of_entry {u v : Flat} (hc : c.steps = 0)
    (h : Flat.Entry e (Flat.begin e c) j a u v) :
    (e.standing c j).2.context = u.run.context ∧
    (e.standing c (j + 1)).2.context = v.run.context := by
  rw [standing_eq_runFor hc, standing_eq_runFor hc, Flat.run_runFor_of_after h.reached,
    Flat.run_runFor_of_after h.onward]
  exact ⟨rfl, rfl⟩

/-- **The row of the `j`-th token** stands at that token and knows the context
just before it. -/
theorem row_of_entry {u v : Flat} (hc : c.steps = 0)
    (h : Flat.Entry e (Flat.begin e c) j a u v) :
    a.moment = ⟨j, (e.standing c j).2.context.tape.head, (e.standing c j).2.context.tape.current⟩ ∧
    e.due? c j = some a.position ∧ e.program.token? a.position = some a.token ∧
    a.action.Tells e.program a.position (e.standing c j).2.context a.token := by
  have hsteps : u.run.context.steps = j := by
    rw [Flat.steps_after h.reached]
    show c.steps + j = j
    omega
  rw [(standing_of_entry hc h).1, h.moment_eq, Context.moment, hsteps, h.position_eq]
  refine ⟨rfl, ?_, h.due.token_eq, h.tells⟩
  exact (due?_eq_some_iff hc).mpr ⟨u, a.token, h.reached, h.due, rfl⟩

/-- **The next row stands where this one leads.** -/
theorem leads_of_entry {u v u' v' : Flat} (h : Flat.Entry e (Flat.begin e c) j a u v)
    (h' : Flat.Entry e (Flat.begin e c) (j + 1) b u' v') :
    b.position = a.action.next a.position ∧ a.action.Leads a.moment b.moment := by
  -- The state behind this token is the one before the next.
  have hsame : v = u' := by
    have hreached := h.onward.symm.trans h'.reached
    injection hreached
  subst hsame
  refine ⟨by rw [h'.position_eq, h.next_eq, h.position_eq], ?_⟩
  rw [h.moment_eq, h'.moment_eq, h.context_eq]
  exact h.tells.leads

end Setup

/-- What surrounds a traced run of a machine. -/
def Machine.watched (w : Machine) (control : Option Control) : Setup :=
  w.setup { traced := true, control } 0

/-- **THE STEP TABLE REPLAYS THE RUN.**  For every program, every tape that can
be had and all reins, a traced run of at most `k` tokens leaves a table; it is
printed as two lines of heading and one line for each row, which shows the step,
the place, the head, the cell, the kind and the action of the row, and these
are the lines of the text that is printed.  Each token that is dispatched has a
row, the `j`-th token row `j`, but for the one whose bracket breaks the nesting,
which has none.  Row `j` numbers the step `j`, stands at the token that is due
after `j` others, and shows the head and the cell under it in the context after
`j` tokens; its action says what the token did.  The next row stands where that
action leads: at the start of the loop that is begun again and one token further
otherwise, with the head and the cell that the action names.  The bytes of the
output rows are the output of the run.  Rows that are printed alike are alike,
but for the text of a comment. -/
theorem table_replays_run (w : Machine) (control : Option Control) (c : Context)
    (hc : Context.fresh w.settings.memorySize = .ok c) (k : Nat) :
    (∃ rows : Array Row,
      (w.perform { traced := true, control } k).1.table = some rows ∧
      (Table.lines rows.toList).length = rows.size + 2 ∧
      (Table.lines rows.toList).take 2
        = ["STEP | IP  | PTR | CELL | TOKEN     | ACTION",
          "-----+-----+-----+------+-----------+------------------------------------------------"] ∧
      (∀ j, (Table.lines rows.toList)[j + 2]? = rows[j]?.map Row.render) ∧
      (∀ j a, rows[j]? = some a →
        ∃ line, (Table.lines rows.toList)[j + 2]? = some line ∧ a.Printed line) ∧
      Text.lines (String.join ((Table.lines rows.toList).map (· ++ "\n"))).toList
        = (Table.lines rows.toList).map (fun line => line.toList ++ ['\n']) ∧
      (∀ j i, j < k → (w.watched control).due? c j = some i →
        (∃ a, rows[j]? = some a) ∨
          (j = rows.size ∧ (w.perform { traced := true, control } k).1.ending.BreaksAt i)) ∧
      (∀ i, (w.perform { traced := true, control } k).1.ending.BreaksAt i →
        (w.watched control).due? c rows.size = some i) ∧
      (∀ j a, rows[j]? = some a →
        j < k ∧
        a.moment = ⟨j, ((w.watched control).standing c j).2.context.tape.head,
          ((w.watched control).standing c j).2.context.tape.current⟩ ∧
        (w.watched control).due? c j = some a.position ∧
        w.program.token? a.position = some a.token ∧
        a.action.Tells w.program a.position ((w.watched control).standing c j).2.context
          a.token) ∧
      (∀ j a b, rows[j]? = some a → rows[j + 1]? = some b →
        b.position = a.action.next a.position ∧ a.action.Leads a.moment b.moment) ∧
      rows.toList.filterMap (fun a => a.action.byte?)
        = (w.perform { traced := true, control } k).2.context.output.toList) ∧
    ∀ a b : Row, a.render = b.render →
      a.moment = b.moment ∧ a.position = b.position ∧ a.token.literal? = b.token.literal? ∧
        a.action = b.action := by
  have h0 := Context.steps_of_fresh hc
  have hempty : c.output = #[] := by rw [Context.eq_of_fresh hc]
  have hrec := Flat.recorded_runFor (e := w.watched control) (c := c) rfl hempty k
  rw [← Setup.standing_eq_runFor h0] at hrec
  rw [Machine.perform_eq_conclude hc]
  refine ⟨⟨_, rfl, Table.length_lines _, rfl, Table.getElem?_lines _, fun j a ha => ?_,
    Table.lines_join _, fun j i hj hdue => ?_, fun i hi => ?_, fun j a hj => ?_,
    fun j a b ha hb => ?_, hrec.bytes⟩, fun a b h => Row.render_inj h⟩
  · refine ⟨a.render, ?_, Row.printed_iff.mpr rfl⟩
    rw [Table.getElem?_lines, ha]
    rfl
  · obtain ⟨t, token, ht, hd, rfl⟩ := (Setup.due?_eq_some_iff h0).mp hdue
    rcases hrec.complete j hj t token ht hd with hlt | hlast
    · exact .inl ⟨_, Array.getElem?_eq_getElem hlt⟩
    · exact .inr hlast
  · exact (Setup.due?_eq_some_iff h0).mpr (hrec.omitted i hi)
  · obtain ⟨u, v, hentry⟩ := hrec.tabled.entry j a hj
    have hlt : j < _ := (Array.getElem?_eq_some_iff.mp hj).1
    exact ⟨Nat.lt_of_lt_of_le hlt hrec.size_le, Setup.row_of_entry h0 hentry⟩
  · obtain ⟨u, v, hentry⟩ := hrec.tabled.entry j a ha
    obtain ⟨u', v', hentry'⟩ := hrec.tabled.entry (j + 1) b hb
    exact Setup.leads_of_entry hentry hentry'

/-- A loop that is run twice and outputs a byte each time, and behind it a
closing bracket in no loop. -/
def watchedLoop : Machine where
  program := .ofTokens [.literal (.word .upper), .literal (.word .upper),
    .literal (.word .upper), .literal (.word .upper), .literal .loopBegin,
    .literal (.word .lower), .literal (.word .lower), .literal .output, .literal .loopEnd,
    .literal .loopEnd]
  settings := { memorySize := 2 }

theorem table_replays_run_watchedLoop :
    Context.fresh watchedLoop.settings.memorySize = .ok { tape := .zeroed 2 } ∧
    (watchedLoop.perform { traced := true } 20).1.ending = .failed (.unmatchedLoopEnd 9) ∧
    (watchedLoop.watched none).due? { tape := .zeroed 2 } 13 = some 9 ∧
    ∃ rows, (watchedLoop.perform { traced := true } 20).1.table = some rows ∧
      rows.size = 13 ∧
      rows[8]? = some ⟨⟨8, 0, 1⟩, 8, .literal .loopEnd, .repeated 0 1 5⟩ ∧
      (Table.lines rows.toList)[10]?
        = some "8    | 8   | 0   | 1    | LoopEnd   | cell[0] is 1; repeat from IP 5" ∧
      rows[9]?.map Row.position = some 5 ∧
      rows.toList.filterMap (fun a => a.action.byte?) = [1, 0] := by
  have hc : Context.fresh watchedLoop.settings.memorySize = .ok { tape := .zeroed 2 } := rfl
  obtain ⟨⟨rows, htable, -, -, -, hprinted, -, -, homitted, -, -, hbytes⟩, -⟩ :=
    table_replays_run watchedLoop none _ hc 20
  have hrows : (watchedLoop.perform { traced := true } 20).1.table.map
      (fun rows => (rows.size, rows[8]?, rows[9]?.map Row.position))
        = some (13, some ⟨⟨8, 0, 1⟩, 8, .literal .loopEnd, .repeated 0 1 5⟩, some 5) := by decide
  have hbreak : (watchedLoop.perform { traced := true } 20).1.ending
      = .failed (.unmatchedLoopEnd 9) := by decide
  rw [htable, Option.map_some, Option.some.injEq, Prod.mk.injEq, Prod.mk.injEq] at hrows
  obtain ⟨hsize, h8, h9⟩ := hrows
  obtain ⟨line, hline, hrow⟩ := hprinted 8 _ h8
  have htext : line = "8    | 8   | 0   | 1    | LoopEnd   | cell[0] is 1; repeat from IP 5" :=
    (Row.printed_iff.mp hrow).trans (by decide +kernel)
  have hdue := homitted 9 (.inl hbreak)
  rw [hsize] at hdue
  exact ⟨hc, hbreak, hdue, rows, htable, hsize, h8, htext ▸ hline, h9,
    hbytes.trans (by decide)⟩

end Prairie
