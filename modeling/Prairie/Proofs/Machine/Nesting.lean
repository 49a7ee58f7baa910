/-
  Prairie.Proofs.Machine.Nesting
  ──────────────────────────────
  **THE BRACKETS DECIDE HOW A RUN ENDS.**

  Loops are entered on any cell, repeated any number of times and left open,
  and yet how a run ends can be read off the program without running it.
  Three things hold after every token (`InOrder`):

    • every token before the position has been dispatched, and none of them
      breaks the nesting,
    • the stack is as high as brackets stand open around the position.

  So a run sweeps the program from the left, jumps back only into what it has
  seen, and stops at the first token that breaks the nesting or not at all.
-/
import Prairie.Proofs.Machine.Trail

namespace Prairie

namespace Flat

variable {e : Setup} {s t t' : Flat} {token : Token} {fault : Fault} {k n : Nat}

/-! ## §1. Moves and violations. -/

/-- A token that moves the machine does not break the nesting. -/
theorem Move.not_violates (h : Move e s t)
    (hb : (s.tests.length : Int) = e.program.balance s.position) (f : Fault) :
    ¬ e.program.Violates e.maxLoopDepth s.position f := by
  intro hv
  cases hv with
  | closing hc h0 =>
      cases h with
      | onward _ hnc _ _ => exact hnc hc
      | enter ho _ _ _ => exact ho.not_closes hc
      | leave test _ htests _ _ =>
          rw [htests, List.length_cons, h0] at hb
          omega
      | again test tests _ htests _ _ _ =>
          rw [htests, List.length_cons, h0] at hb
          omega
  | @opening l ho hl hle =>
      cases h with
      | onward hno _ _ _ => exact hno ho
      | enter _ allowed _ _ =>
          have := allowed l hl
          omega
      | leave _ hc _ _ _ => exact ho.not_closes hc
      | again _ _ hc _ _ _ _ => exact ho.not_closes hc

theorem violates_of_error (ht : e.program.token? s.position = some token)
    (h : s.step e token = .error fault)
    (hb : (s.tests.length : Int) = e.program.balance s.position) :
    e.program.Violates e.maxLoopDepth s.position fault := by
  rcases step_error ht h with ⟨hc, htests, rfl⟩ | ⟨ho, l, hl, hle, rfl⟩
  · rw [htests] at hb
    exact .closing hc hb.symm
  · exact .opening ho hl (by omega)

/-! ## §2. What holds after every token. -/

/-- The state of a run that has dispatched the tokens before `n`. -/
structure InOrder (e : Setup) (n : Nat) (t : Flat) : Prop where
  position_le : t.position ≤ n
  sound : ∀ i < n, ∀ f, ¬ e.program.Violates e.maxLoopDepth i f
  level : Level e t

theorem InOrder.balance_eq (h : InOrder e n t) :
    (t.tests.length : Int) = e.program.balance t.position := by
  rw [← Program.length_enclosing fun j hj => h.sound j (Nat.lt_of_lt_of_le hj h.position_le),
    h.level]

/-- **A token keeps a run in order.** -/
theorem InOrder.next (h : InOrder e n t) (hn : next? e t = some t') :
    InOrder e (max n (t.position + 1)) t' := by
  obtain ⟨token, hdue, hs⟩ := next?_eq_some_iff.mp hn
  have hm := (step_ok hdue.token_eq hs).2
  obtain ⟨hlevel, hle⟩ := hm.level h.level
  refine ⟨Nat.le_trans hle (Nat.le_max_right _ _), fun i hi f => ?_, hlevel⟩
  have hp := h.position_le
  -- Either `i` was in order before or it is the token that moved the machine.
  by_cases hin : i < n
  · exact h.sound i hin f
  · obtain rfl : i = t.position := by omega
    exact hm.not_violates h.balance_eq f

/-- The token `i` is one of the first `k` that a run from `s` dispatches. -/
def Dispatched (e : Setup) (s : Flat) (k i : Nat) : Prop :=
  ∃ j < k, ∃ t token, after e s j = some t ∧ Due e t token ∧ t.position = i

theorem dispatched_succ_iff {i : Nat} :
    Dispatched e s (k + 1) i ↔ Dispatched e s k i ∨
      ∃ t token, after e s k = some t ∧ Due e t token ∧ t.position = i := by
  constructor
  · rintro ⟨j, hj, h⟩
    rcases Nat.eq_or_lt_of_le (Nat.le_of_lt_succ hj) with rfl | hlt
    · exact .inr h
    · exact .inl ⟨j, hlt, h⟩
  · rintro (⟨j, hj, h⟩ | h)
    · exact ⟨j, Nat.lt_succ_of_lt hj, h⟩
    · exact ⟨k, Nat.lt_succ_self k, h⟩

/-- The first `k` tokens that a run from `s` dispatches are, by place, those
before `n`, and the run is in order behind them. -/
structure Swept (e : Setup) (s : Flat) (k n : Nat) : Prop where
  segment : ∀ i, Dispatched e s k i ↔ i < n
  in_order : ∀ t, after e s k = some t → InOrder e n t
  le : n ≤ k

theorem swept_zero (hp : s.position = 0) (ht : s.tests = []) : Swept e s 0 0 := by
  refine ⟨fun i => ⟨?_, fun h => absurd h (Nat.not_lt_zero i)⟩, fun t h => ?_, Nat.le_refl _⟩
  · rintro ⟨j, hj, -⟩
    exact absurd hj (Nat.not_lt_zero j)
  · injection h with h
    subst h
    refine ⟨Nat.le_of_eq hp, fun i hi => absurd hi (Nat.not_lt_zero i), ?_⟩
    rw [Level, hp, ht]
    rfl

/-- One more token is dispatched, and it is in the segment or right behind it. -/
theorem Swept.next (h : Swept e s k n) (hk : after e s k = some t) (hd : Due e t token) :
    Swept e s (k + 1) (max n (t.position + 1)) := by
  have hpos := (h.in_order t hk).position_le
  have hle := h.le
  refine ⟨fun i => ?_, fun t' ht' => ?_, by omega⟩
  · rw [dispatched_succ_iff, h.segment]
    constructor
    · rintro (hi | ⟨u, _, hu, -, rfl⟩)
      · omega
      · rw [hk] at hu
        injection hu with hu
        rw [hu]
        omega
    · intro hi
      by_cases hin : i < n
      · exact .inl hin
      · exact .inr ⟨t, token, hk, hd, by omega⟩
  · obtain ⟨u, hu, hn⟩ := after_succ_eq_some_iff.mp ht'
    rw [hk] at hu
    injection hu with hu
    subst hu
    exact (h.in_order _ hk).next hn

/-- A run that dispatches no more tokens has come to its end. -/
theorem Swept.over (h : Swept e s k n)
    (hover : ¬ ∃ t token, after e s k = some t ∧ Due e t token) : Swept e s (k + 1) n := by
  refine ⟨fun i => ?_, fun t' ht' => ?_, Nat.le_succ_of_le h.le⟩
  · rw [dispatched_succ_iff, h.segment]
    constructor
    · rintro (hi | ⟨t, token, hk, hd, -⟩)
      · exact hi
      · exact absurd ⟨t, token, hk, hd⟩ hover
    · exact .inl
  · obtain ⟨u, hu, hn⟩ := after_succ_eq_some_iff.mp ht'
    obtain ⟨token, hd, _⟩ := next?_eq_some_iff.mp hn
    exact absurd ⟨u, token, hu, hd⟩ hover

/-- **A run sweeps the program from the left**: what it has dispatched so far
is an initial segment of the program, and the run is in order. -/
theorem swept (hp : s.position = 0) (ht : s.tests = []) (k : Nat) : ∃ n, Swept e s k n := by
  induction k with
  | zero => exact ⟨0, swept_zero hp ht⟩
  | succ k ih =>
      obtain ⟨n, hn⟩ := ih
      by_cases hdue : ∃ t token, after e s k = some t ∧ Due e t token
      · obtain ⟨t, token, hk, hd⟩ := hdue
        exact ⟨_, hn.next hk hd⟩
      · exact ⟨n, hn.over hdue⟩

/-- No token behind the first violation is ever dispatched. -/
theorem position_le_of_firstViolation {x : Nat} (hp : s.position = 0) (ht : s.tests = [])
    (hx : e.program.FirstViolation e.maxLoopDepth x fault) (h : after e s k = some t) :
    t.position ≤ x := by
  obtain ⟨n, hn⟩ := swept hp ht k
  have ho := hn.in_order t h
  have hle := ho.position_le
  refine Nat.le_of_not_lt fun hlt => ?_
  exact ho.sound x (by omega) fault hx.violates

/-! ## §3. How a run without reins ends. -/

/-- A run that a token stopped was stopped by the first violation. -/
theorem firstViolation_of_error (hp : s.position = 0) (htests : s.tests = [])
    (h : after e s k = some t) (hdue : Due e t token) (hs : t.step e token = .error fault) :
    e.program.FirstViolation e.maxLoopDepth t.position fault := by
  obtain ⟨n, hn⟩ := swept hp htests k
  have ho := hn.in_order t h
  refine ⟨violates_of_error hdue.token_eq hs ho.balance_eq, fun j hj => ho.sound j ?_⟩
  exact Nat.lt_of_lt_of_le hj ho.position_le

/-- What a run has left behind when it stands at `t` has been dispatched. -/
theorem dispatched_of_lt (hp : s.position = 0) (htests : s.tests = [])
    (h : after e s k = some t) {i : Nat} (hi : i < t.position) : Dispatched e s k i := by
  obtain ⟨n, hn⟩ := swept hp htests k
  exact (hn.segment i).mpr (Nat.lt_of_lt_of_le hi (hn.in_order t h).position_le)

/-- A run that is over has met no violation, and has taken at least as many
steps as the program has tokens. -/
theorem sound_of_end (hp : s.position = 0) (htests : s.tests = [])
    (h : after e s k = some t) (hend : e.program.token? t.position = none) :
    e.program.size ≤ k ∧ ∀ i f, ¬ e.program.Violates e.maxLoopDepth i f := by
  obtain ⟨n, hn⟩ := swept hp htests k
  have ho := hn.in_order t h
  have hsize := token?_eq_none_iff.mp hend
  have hle := ho.position_le
  have hnk := hn.le
  refine ⟨by omega, fun i f hv => ?_⟩
  by_cases hi : i < n
  · exact ho.sound i hi f hv
  · have hnone : e.program.token? i = none := token?_eq_none_iff.mpr (by omega)
    cases hv with
    | closing hc _ => rw [Program.Closes, hnone] at hc; cases hc
    | opening ho _ _ => rw [Program.Opens, hnone] at ho; cases ho

end Flat

/-! ## §4. Runs of frames. -/

namespace Setup

variable {e : Setup} {c : Context}

/-- The tokens of a run of frames are those of the flat machine. -/
theorem exists_due?_iff (hc : c.steps = 0) {k i : Nat} :
    (∃ j < k, e.due? c j = some i) ↔ Flat.Dispatched e (Flat.begin e c) k i := by
  constructor
  · rintro ⟨j, hj, h⟩
    exact ⟨j, hj, (due?_eq_some_iff hc).mp h⟩
  · rintro ⟨j, hj, h⟩
    exact ⟨j, hj, (due?_eq_some_iff hc).mpr h⟩

/-- A run that failed met the first violation or was refused its next token. -/
theorem failed_cases (hc : c.steps = 0) {k : Nat} {fault : Fault}
    (h : (e.standing c k).1 = .failed fault) :
    (∃ x, e.program.FirstViolation e.maxLoopDepth x fault) ∨
      e.refusal? (e.standing c k).2 = some fault := by
  rw [standing_eq_runFor hc] at h ⊢
  have hv := Flat.verdict e k (Flat.begin e c)
  generalize Flat.runFor e k (Flat.begin e c) = o at h hv ⊢
  cases hv with
  | suspended t token reached due => cases h
  | finished j t le reached at_end => cases h
  | refused j t token fault' le reached token_eq refusal =>
      injection h with h
      subst h
      exact .inr refusal
  | faulted j t token fault' lt reached due error =>
      injection h with h
      subst h
      exact .inl ⟨t.position, Flat.firstViolation_of_error rfl rfl reached due error⟩

/-- How a run that ended came to its end, when nothing held it back: the last
token broke the nesting, and the state is the one before it; or the program
is over. -/
inductive Ended (e : Setup) (c : Context) : Ending → Run → Prop where
  | faulted (x : Nat) (fault : Fault) (before : Run)
      (first : e.program.FirstViolation e.maxLoopDepth x fault)
      (state_eq : e.standing c before.context.steps = (.suspended x, before))
      (visited : ∀ i < x, ∃ j < before.context.steps, e.due? c j = some i) :
      Ended e c (.failed fault) { before with context := before.context.count }
  | finished (r : Run) (sound : ∀ x f, ¬ e.program.Violates e.maxLoopDepth x f)
      (size_le : e.program.size ≤ r.context.steps)
      (visited : ∀ i < e.program.size, ∃ j < r.context.steps, e.due? c j = some i) :
      Ended e c .finished r

/-- The program and the limit on loops decide which of the endings it is. -/
theorem Ended.unique {e' : Setup} {c' : Context} {a a' : Ending} {r r' : Run}
    (hprogram : e'.program = e.program) (hdepth : e'.maxLoopDepth = e.maxLoopDepth)
    (h : Ended e c a r) (h' : Ended e' c' a' r') : a' = a := by
  cases h with
  | faulted x fault before first _ _ =>
      cases h' with
      | faulted x' fault' before' first' _ _ =>
          rw [hprogram, hdepth] at first'
          rw [(first'.unique first).2]
      | finished _ sound _ _ =>
          rw [hprogram, hdepth] at sound
          exact absurd first.violates (sound x fault)
  | finished _ sound _ _ =>
      cases h' with
      | faulted x fault _ first _ _ =>
          rw [hprogram, hdepth] at first
          exact absurd first.violates (sound x fault)
      | finished _ _ _ _ => rfl

/-- **A run without reins ends in one of these ways or not at all.** -/
theorem ended_of_run (hc : c.steps = 0) (hfree : e.control = none)
    (h : (e.run c).1 ≠ .suspended) : Ended e c (e.run c).1 (e.run c).2 := by
  have hstart : Flat.begin e c = { run := e.begin c } := rfl
  have hsteps : ∀ {j t}, Flat.after e (Flat.begin e c) j = some t → t.run.context.steps = j := by
    intro j t ht
    rw [Flat.steps_after ht, hstart]
    show c.steps + j = j
    rw [hc, Nat.zero_add]
  rw [run_eq_standing, standing_eq_runFor hc] at h ⊢
  -- Nothing holds the run back, so two of the four verdicts are left.
  have hv := Flat.verdict e e.allowance (Flat.begin e c)
  generalize Flat.runFor e e.allowance (Flat.begin e c) = o at h hv ⊢
  cases hv with
  | suspended => exact absurd rfl h
  | finished j t le reached at_end =>
      obtain ⟨hsize, hsound⟩ := Flat.sound_of_end rfl rfl reached at_end
      refine .finished _ hsound (by rw [hsteps reached]; exact hsize) fun i hi => ?_
      rw [hsteps reached, exists_due?_iff hc]
      refine Flat.dispatched_of_lt rfl rfl reached ?_
      exact Nat.lt_of_lt_of_le hi (Flat.token?_eq_none_iff.mp at_end)
  | refused j t token fault le reached token_eq refusal =>
      rw [refusal?_of_free hfree] at refusal
      cases refusal
  | faulted j t token fault lt reached due error =>
      refine .faulted t.position fault t.run
        (Flat.firstViolation_of_error rfl rfl reached due error) ?_ fun i hi => ?_
      · rw [hsteps reached, standing_eq_runFor hc, Flat.runFor_of_due reached due]
      · rw [hsteps reached, exists_due?_iff hc]
        exact Flat.dispatched_of_lt rfl rfl reached hi

end Setup

/-- **THE BRACKETS DECIDE HOW A RUN ENDS.**  For every program and every tape
that can be had, whatever the reins, the dispatched tokens are an initial
segment of the program and none lies behind the first violation of the
nesting.  A run without reins that ends does so with the fault of the first
violation, in the state just before it, when there is one; and otherwise it
finishes, having dispatched every token.  The size of the tape and what is
on it have no say in which of these happens. -/
theorem ending_of_brackets (e : Setup) (memorySize : Nat) (c : Context)
    (hc : Context.fresh memorySize = .ok c) :
    (∀ k, ∃ n, ∀ i, (∃ j < k, e.due? c j = some i) ↔ i < n) ∧
    (∀ x fault, e.program.FirstViolation e.maxLoopDepth x fault →
      ∀ j i, e.due? c j = some i → i ≤ x) ∧
    (e.control = none → ∀ ending r, e.run c = (ending, r) → ending ≠ .suspended →
      (∀ x fault, e.program.FirstViolation e.maxLoopDepth x fault →
        ending = .failed fault ∧
        (∃ j before, e.standing c j = (.suspended x, before) ∧
          r = { before with context := before.context.count }) ∧
        ∀ i < x, ∃ j < r.context.steps, e.due? c j = some i) ∧
      ((∀ x fault, ¬ e.program.Violates e.maxLoopDepth x fault) →
        ending = .finished ∧ e.program.size ≤ r.context.steps ∧
        ∀ i < e.program.size, ∃ j < r.context.steps, e.due? c j = some i)) ∧
    (∀ (e' : Setup) (memorySize' : Nat) (c' : Context),
      Context.fresh memorySize' = .ok c' → e'.program = e.program →
      e'.maxLoopDepth = e.maxLoopDepth → e.control = none → e'.control = none →
      (e.run c).1 ≠ .suspended → (e'.run c').1 ≠ .suspended →
      (e'.run c').1 = (e.run c).1) := by
  have h0 := Context.steps_of_fresh hc
  refine ⟨fun k => ?_, fun x fault hx j i hj => ?_, fun hfree ending r hrun hend => ?_, ?_⟩
  · obtain ⟨n, hn⟩ := Flat.swept (e := e) (s := Flat.begin e c) rfl rfl k
    exact ⟨n, fun i => by rw [Setup.exists_due?_iff h0, hn.segment]⟩
  · obtain ⟨t, token, ht, -, rfl⟩ := (Setup.due?_eq_some_iff h0).mp hj
    exact Flat.position_le_of_firstViolation rfl rfl hx ht
  · have hended := Setup.ended_of_run h0 hfree (by rw [hrun]; exact hend)
    rw [hrun] at hended
    cases hended with
    | faulted x fault before first state_eq visited =>
        refine ⟨fun x' fault' hx => ?_, fun hsound => ?_⟩
        · obtain ⟨rfl, rfl⟩ := hx.unique first
          refine ⟨rfl, ⟨_, before, state_eq, rfl⟩, fun i hi => ?_⟩
          obtain ⟨j, hj, hdue⟩ := visited i hi
          exact ⟨j, Nat.lt_succ_of_lt hj, hdue⟩
        · exact absurd first.violates (hsound x fault)
    | finished r sound size_le visited =>
        refine ⟨fun x fault hx => ?_, fun _ => ⟨rfl, size_le, visited⟩⟩
        exact absurd hx.violates (sound x fault)
  · intro e' memorySize' c' hc' hprogram hdepth hfree hfree' hend hend'
    exact (Setup.ended_of_run h0 hfree hend).unique hprogram hdepth
      (Setup.ended_of_run (Context.steps_of_fresh hc') hfree' hend')

/-- A program with one closing bracket too many. -/
def strayClose : Setup where
  program := .ofTokens [.literal .loopBegin, .literal .loopEnd, .literal .loopEnd,
    .literal .output]
  allowance := 5

theorem firstViolation_strayClose :
    strayClose.program.FirstViolation strayClose.maxLoopDepth 2 (.unmatchedLoopEnd 2) := by
  refine ⟨.closing rfl (by decide), fun j hj f hv => ?_⟩
  cases hv with
  | closing hc h0 =>
      match j, hj with
      | 0, _ => cases hc
      | 1, _ => exact absurd h0 (by decide)
  | opening _ hl _ => cases hl

theorem ending_of_brackets_strayClose :
    Context.fresh 1 = .ok { tape := .zeroed 1 } ∧ strayClose.control = none ∧
    (strayClose.run { tape := .zeroed 1 }).1 = .failed (.unmatchedLoopEnd 2) := by
  refine ⟨rfl, rfl, ?_⟩
  have h := (ending_of_brackets strayClose 1 { tape := .zeroed 1 } rfl).2.2.1 rfl _ _ rfl
    (by decide)
  exact (h.1 2 _ firstViolation_strayClose).1

end Prairie
