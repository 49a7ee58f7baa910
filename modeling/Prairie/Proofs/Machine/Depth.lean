/-
  Prairie.Proofs.Machine.Depth
  ────────────────────────────
  **A LIMIT ON OPEN LOOPS CUTS A RUN SHORT.**

  Run a program twice, with a limit on the loops that may be open at once and
  without one.

    • Under the limit there are never more loops alive than it allows, and how
      many there are is read off the position: as many as brackets stand open
      there, however often a loop has begun again (`keeps_atHeight`,
      `Stacked.counted`).
    • The limit is looked at by an opening bracket and by nothing else.  Before
      the first one that opens a loop inside `limit` others the two runs are in
      step (`inStep_nested`); at that bracket the limited one fails, in the
      state that the free one has reached it in (`standing_of_opensInside`).

  A higher limit is looked at later or never, so it is in step for as long.
-/
import Prairie.Proofs.Machine.Bounds

namespace Prairie

/-! ## §1. The loops alive at a call. -/

/-- The number of loops among the frames. -/
def loopsIn (stack : List Activation) : Nat := stack.countP (·.frame.test.isSome)

/-- How many loops are alive at a call: no more than the limit; at each token
and at the end of the program as many as brackets stand open there; and behind
the end, where frames are only given up, fewer than stand open at the end. -/
structure Counted (p : Program) (limit : Nat) (stack : List Activation) : Prop where
  loops_le : loopsIn stack ≤ limit
  loops_eq : ∀ a ∈ stack.head?, a.position ≤ p.size →
    loopsIn stack = (p.enclosing a.position).length
  loops_lt : ∀ a ∈ stack.head?, p.size < a.position →
    loopsIn stack < (p.enclosing p.size).length

instance (p : Program) (limit : Nat) (stack : List Activation) :
    Decidable (Counted p limit stack) :=
  decidable_of_iff (loopsIn stack ≤ limit ∧
      (∀ a ∈ stack.head?, a.position ≤ p.size →
        loopsIn stack = (p.enclosing a.position).length) ∧
      ∀ a ∈ stack.head?, p.size < a.position → loopsIn stack < (p.enclosing p.size).length)
    ⟨fun h => ⟨h.1, h.2.1, h.2.2⟩, fun h => ⟨h.loops_le, h.loops_eq, h.loops_lt⟩⟩

/-- A frame is as deep as brackets stand open at its start and where it stands,
and no deeper than the limit. -/
structure Activation.AtHeight (p : Program) (limit : Nat) (a : Activation) : Prop where
  depth_le : a.frame.depth ≤ limit
  start_le : a.frame.start ≤ p.size
  start_eq : a.frame.depth = (p.enclosing a.frame.start).length
  depth_eq : a.position ≤ p.size → a.frame.depth = (p.enclosing a.position).length
  depth_lt : p.size < a.position → a.frame.depth < (p.enclosing p.size).length

section

variable {e : Setup} {p : Program} {limit position position' : Nat} {frame inner : Frame}
  {stack stack' around : List Activation} {r r' : Run}

theorem Activation.AtHeight.move (h : AtHeight p limit ⟨frame, position⟩)
    (hle : position' ≤ p.size) (hdepth : frame.depth = (p.enclosing position').length) :
    AtHeight p limit ⟨frame, position'⟩ :=
  ⟨h.depth_le, h.start_le, h.start_eq, fun _ => hdepth,
    fun hlt => absurd hle (Nat.not_le_of_lt hlt)⟩

/-- The frame around a loop that the end of the program ended. -/
theorem Activation.AtHeight.fall {stop : Nat} (h : AtHeight p limit ⟨frame, position⟩)
    (hinner : AtHeight p limit ⟨inner, stop⟩) (hstop : p.size ≤ stop)
    (hdepth : inner.depth = frame.depth + 1) : AtHeight p limit ⟨frame, p.size + 1⟩ := by
  refine ⟨h.depth_le, h.start_le, h.start_eq, fun hle => ?_, fun _ => ?_⟩
  · exact absurd hle (Nat.not_succ_le_self _)
  · show frame.depth < (p.enclosing p.size).length
    rcases Nat.eq_or_lt_of_le hstop with heq | hlt
    · have hat : inner.depth = (p.enclosing stop).length := hinner.depth_eq (Nat.le_of_eq heq.symm)
      rw [← heq] at hat
      omega
    · have hat : inner.depth < (p.enclosing p.size).length := hinner.depth_lt hlt
      omega

/-- A loop that may be entered is within the limit. -/
theorem Activation.atHeight_enter {test : Nat} (ho : p.Opens position)
    (h : AtHeight p limit ⟨frame, position⟩) (hlt : frame.depth < limit) :
    AtHeight p limit ⟨⟨position + 1, some test, frame.depth + 1⟩, position + 1⟩ := by
  have hsize := Program.lt_size_of_token? ho
  have hdepth : frame.depth = (p.enclosing position).length := h.depth_eq (Nat.le_of_lt hsize)
  have hinner : frame.depth + 1 = (p.enclosing (position + 1)).length := by
    rw [Program.enclosing_succ_of_opens ho, List.length_cons, hdepth]
  exact ⟨hlt, hsize, hinner, fun _ => hinner, fun h => absurd hsize (Nat.not_le_of_lt h)⟩

/-- Frames at their height lead to frames at their height. -/
theorem atHeight_onward (hlimit : e.maxLoopDepth = some limit)
    (hon : Onward e stack r stack' r') (hstack : Stacked stack)
    (h : ∀ a ∈ stack, a.AtHeight e.program limit) :
    ∀ a ∈ stack', a.AtHeight e.program limit := by
  cases hon with
  | @stay frame position around r r' token htoken hno hnc hctx =>
      obtain ⟨htop, haround⟩ := List.forall_mem_cons.mp h
      have hlt := Program.lt_size_of_token? htoken
      have hdepth : frame.depth = (e.program.enclosing position).length :=
        htop.depth_eq (Nat.le_of_lt hlt)
      refine List.forall_mem_cons.mpr ⟨htop.move hlt ?_, haround⟩
      rw [Program.enclosing_succ_of_neither hno hnc, hdepth]
  | enter ho hallowed hctx =>
      have htop := h _ List.mem_cons_self
      exact List.forall_mem_cons.mpr
        ⟨Activation.atHeight_enter ho htop (Flat.lt_of_depthExceeded? hallowed hlimit), h⟩
  | again test hc htest hne hctx =>
      -- However often it begins again, its start is where it was.
      obtain ⟨htop, haround⟩ := List.forall_mem_cons.mp h
      exact List.forall_mem_cons.mpr ⟨htop.move htop.start_le htop.start_eq, haround⟩
  | @leave inner frame stop position around r r' test hc htest hz hctx =>
      obtain ⟨htop, hrest⟩ := List.forall_mem_cons.mp h
      obtain ⟨hwaits, haround⟩ := List.forall_mem_cons.mp hrest
      have hlt := Program.lt_size_of_token? hc
      -- One bracket fewer stands open, and the frame around is one less deep.
      have hinner : inner.depth = (e.program.enclosing stop).length :=
        htop.depth_eq (Nat.le_of_lt hlt)
      refine List.forall_mem_cons.mpr ⟨hwaits.move hlt ?_, haround⟩
      rw [Program.enclosing_succ_of_closes hc, List.length_tail, ← hinner, hstack.depth_eq,
        Nat.add_sub_cancel]
  | fall hend =>
      obtain ⟨htop, hrest⟩ := List.forall_mem_cons.mp h
      obtain ⟨hwaits, haround⟩ := List.forall_mem_cons.mp hrest
      exact List.forall_mem_cons.mpr
        ⟨hwaits.fall htop (Flat.token?_eq_none_iff.mp hend) hstack.depth_eq, haround⟩

/-- **Every call hands its height to the next.** -/
theorem keeps_atHeight (hlimit : e.maxLoopDepth = some limit) :
    Keeps e fun stack _ => Stacked stack ∧ ∀ a ∈ stack, a.AtHeight e.program limit :=
  fun _ _ _ _ hon h => ⟨h.1.onward hon, atHeight_onward hlimit hon h.1 h.2⟩

/-- Frames that lie one inside the other are as many loops as the innermost is
deep. -/
theorem Stacked.loopsIn_eq (h : Stacked stack) :
    ∀ a ∈ stack.head?, loopsIn stack = a.frame.depth := by
  induction h with
  | program position =>
      rintro a ⟨⟩
      rfl
  | @loop frame position around start test inside outer ih =>
      rintro a ⟨⟩
      have hih : loopsIn (⟨frame, position⟩ :: around) = frame.depth := ih _ rfl
      show loopsIn (⟨⟨start, some test, frame.depth + 1⟩, inside⟩ :: _) = frame.depth + 1
      rw [loopsIn, List.countP_cons, ← loopsIn, hih]
      rfl

theorem Stacked.counted (hstack : Stacked stack) (h : ∀ a ∈ stack, a.AtHeight p limit) :
    Counted p limit stack := by
  cases hs : stack with
  | nil =>
      subst hs
      cases hstack
  | cons a around =>
      subst hs
      have hloops := hstack.loopsIn_eq a rfl
      have ha := h a List.mem_cons_self
      refine ⟨hloops ▸ ha.depth_le, ?_, ?_⟩
      · rintro b ⟨⟩
        rw [hloops]
        exact ha.depth_eq
      · rintro b ⟨⟩
        rw [hloops]
        exact ha.depth_lt

theorem atHeight_begin (p : Program) (limit : Nat) : Activation.AtHeight p limit ⟨{}, 0⟩ :=
  ⟨Nat.zero_le _, Nat.zero_le _, rfl, fun _ => rfl, fun h => absurd h (Nat.not_lt_zero _)⟩

end

/-! ## §2. Two limits. -/

/-- Token `i` opens a loop inside exactly `limit` others. -/
def Program.OpensInside (p : Program) (limit i : Nat) : Prop :=
  p.Opens i ∧ (p.enclosing i).length = limit

instance (p : Program) (limit i : Nat) : Decidable (p.OpensInside limit i) :=
  inferInstanceAs (Decidable (_ ∧ _))

/-- The same run under another limit on open loops, or under none. -/
def Setup.nested (e : Setup) (limit : Option Nat) : Setup := { e with maxLoopDepth := limit }

theorem Setup.depthExceeded?_nested {e : Setup} {higher : Option Nat} {depth : Nat}
    (h : ∀ l ∈ higher, depth < l) : (e.nested higher).depthExceeded? depth = none := by
  show higher.filter _ = none
  rw [Option.filter_eq_none_iff]
  intro l hl
  simpa using h l hl

namespace Flat

variable {e : Setup} {s t : Flat} {limit k : Nat} {c : Context}

/-- As long as no loop is opened inside `limit` others, no more are open. -/
theorem height_le (h : ∀ i < k, ∀ t token, after e (begin e c) i = some t → Due e t token →
      ¬ e.program.OpensInside limit t.position) :
    ∀ {i : Nat}, i ≤ k → ∀ {t : Flat}, after e (begin e c) i = some t →
      t.tests.length ≤ limit := by
  intro i
  induction i with
  | zero =>
      intro _ t ht
      injection ht with ht
      rw [← ht]
      exact Nat.zero_le _
  | succ i ih =>
      intro hi t' ht'
      obtain ⟨t, ht, hn⟩ := after_succ_eq_some_iff.mp ht'
      obtain ⟨token, hdue, hs⟩ := next?_eq_some_iff.mp hn
      have hle := ih (Nat.le_of_succ_le hi) ht
      have hlevel : t.tests.length = (e.program.enclosing t.position).length := level_after ht
      cases (step_ok hdue.token_eq hs).2 with
      | onward _ _ _ htests => rw [htests]; exact hle
      | enter ho _ _ htests =>
          -- Inside `limit` loops it would be one too many.
          have hne : (e.program.enclosing t.position).length ≠ limit :=
            fun heq => h i hi t token ht hdue ⟨ho, heq⟩
          rw [htests, List.length_cons]
          omega
      | leave test _ htests _ _ =>
          rw [htests, List.length_cons] at hle
          omega
      | again _ _ _ _ _ _ htests => rw [htests]; exact hle

/-- **A limit that is not reached is not noticed.** -/
theorem inStep_nested {higher : Option Nat} (hhigher : ∀ l ∈ higher, limit ≤ l)
    (h : ∀ i < k, ∀ t token, after (e.nested none) (begin e c) i = some t →
      Due (e.nested none) t token → ¬ e.program.OpensInside limit t.position) :
    InStep (e.nested none) (e.nested higher) (begin e c) k := by
  refine ⟨rfl, rfl, fun i hi t token ht hdue => ?_⟩
  cases token with
  | comment text => rfl
  | literal l =>
      cases l with
      | word w => rfl
      | output => rfl
      | loopEnd => rfl
      | loopBegin =>
          have hle : t.tests.length ≤ limit := height_le (e := e.nested none) h (Nat.le_of_lt hi) ht
          have hlevel : t.tests.length = (e.program.enclosing t.position).length :=
            level_after (e := e.nested none) ht
          have hne : (e.program.enclosing t.position).length ≠ limit :=
            fun heq => h i hi t _ ht hdue ⟨hdue.token_eq, heq⟩
          rw [step_enter (Setup.depthExceeded?_nested fun l hl => ?_), step_enter rfl]
          · rfl
          · have := hhigher l hl
            omega

end Flat

/-! ## §3. Runs of frames. -/

namespace Setup

variable {e : Setup} {c : Context} {limit k : Nat}

/-- None of the first `k` tokens of a run opens a loop inside `limit` others. -/
def Shallow (e : Setup) (c : Context) (limit k : Nat) : Prop :=
  ∀ j < k, ∀ i ∈ e.due? c j, ¬ e.program.OpensInside limit i

instance (e : Setup) (c : Context) (limit k : Nat) : Decidable (e.Shallow c limit k) :=
  inferInstanceAs (Decidable (∀ j < k, ∀ i ∈ e.due? c j, ¬ _))

theorem Shallow.inStep (hc : c.steps = 0) (h : (e.nested none).Shallow c limit k)
    {higher : Option Nat} (hhigher : ∀ l ∈ higher, limit ≤ l) :
    Flat.InStep (e.nested none) (e.nested higher) (Flat.begin e c) k :=
  Flat.inStep_nested hhigher fun i hi t token ht hdue =>
    h i hi t.position ((due?_eq_some_iff hc).mpr ⟨t, token, ht, hdue, rfl⟩)

/-- Up to there it makes no difference under which higher limit the run is. -/
theorem Shallow.standing_eq (hc : c.steps = 0) (h : (e.nested none).Shallow c limit k)
    {higher : Option Nat} (hhigher : ∀ l ∈ higher, limit ≤ l) :
    (e.nested higher).standing c k = (e.nested none).standing c k := by
  rw [standing_eq_runFor hc, standing_eq_runFor hc]
  exact (h.inStep hc hhigher).runFor_eq

/-- The run fails at the first bracket that opens a loop inside `limit` others,
as the free run reaches it. -/
theorem standing_of_opensInside (hc : c.steps = 0) {j i : Nat}
    (h : (e.nested none).Shallow c limit j) (hdue : (e.nested none).due? c j = some i)
    (hi : e.program.OpensInside limit i) (hk : j < k) :
    (e.nested (some limit)).standing c k
      = ((e.nested none).standing c j).2.fail (.loopDepthExceeded i limit) := by
  obtain ⟨t, token, ht, hd, rfl⟩ := (due?_eq_some_iff hc).mp hdue
  -- The token is the bracket, and the stack is as high as the limit.
  obtain rfl : token = .literal .loopBegin := Option.some.inj (hd.token_eq.symm.trans hi.1)
  have hheight : t.tests.length = limit := (Flat.level_after ht).trans hi.2
  have hexceeded : (e.nested (some limit)).depthExceeded? t.tests.length = some limit := by
    show (some limit).filter _ = some limit
    rw [hheight, Option.filter_some, if_pos (by simp)]
  have hin : Flat.InStep (e.nested none) (e.nested (some limit)) (Flat.begin e c) j :=
    h.inStep hc (by simp)
  have hreached : Flat.after (e.nested (some limit)) (Flat.begin (e.nested (some limit)) c) j
      = some t := hin.after_eq.trans ht
  obtain ⟨d, rfl⟩ : ∃ d, k = j + (d + 1) := ⟨k - j - 1, by omega⟩
  rw [standing_eq_runFor hc, standing_eq_runFor hc, Flat.run_runFor_of_after ht,
    Flat.runFor_add hreached]
  exact Flat.runFor_succ_of_error (e := e.nested (some limit)) hd.token_eq hd.allowed
    (Flat.step_tooDeep hexceeded) d

/-- A run that does not reach the limit has opened no loop inside so many. -/
theorem shallow_of_standing (hc : c.steps = 0)
    (h : ∀ i, ((e.nested (some limit)).standing c k).1 ≠ .failed (.loopDepthExceeded i limit)) :
    (e.nested none).Shallow c limit k := by
  -- Of the brackets that do, the first one would have ended the run.
  intro j
  induction j using Nat.strongRecOn with
  | ind j ih =>
      intro hj i hi hopens
      have hfirst : (e.nested none).Shallow c limit j :=
        fun j' hj' => ih j' hj' (Nat.lt_trans hj' hj)
      refine h i ?_
      rw [standing_of_opensInside hc hfirst hi hopens hj]
      rfl

/-- Behind a bracket that opens a loop inside `limit` others stand more. -/
theorem shallow_of_nesting_le (h : ∀ i, (e.program.enclosing i).length ≤ limit) (c : Context)
    (k : Nat) : e.Shallow c limit k := by
  rintro j - i - ⟨ho, hdepth⟩
  have := h (i + 1)
  rw [Program.enclosing_succ_of_opens ho, List.length_cons] at this
  omega

end Setup

/-- **A LIMIT ON OPEN LOOPS IS A TRUNCATION.**  For every program, every tape
that can be had, every limit and whatever the reins: under the limit no more
loops are ever alive than it allows, and wherever the run is in the program
their number is that of the brackets that stand open there.  As long as no
bracket is dispatched that opens a loop inside `limit` others, the run stands
as the run without a limit; at the first such bracket it fails, in the state in
which the run without a limit reaches it.  So a program whose brackets are never
nested deeper runs alike under the limit and under none, and a run that did not
reach the limit is the same under every higher one. -/
theorem depth_limit_truncates (e : Setup) (memorySize limit : Nat) (c : Context)
    (hc : Context.fresh memorySize = .ok c) :
    (∀ k, { e.nested (some limit) with allowance := k }.inspect
      (fun stack _ => Counted e.program limit stack) (k + 1) [] {} 0 (e.begin c)
        = some ((e.nested (some limit)).standing c k)) ∧
    (∀ k, (e.nested none).Shallow c limit k →
      (e.nested (some limit)).standing c k = (e.nested none).standing c k) ∧
    (∀ j i, (e.nested none).Shallow c limit j → (e.nested none).due? c j = some i →
      e.program.OpensInside limit i → ∀ k, j < k →
        (e.nested (some limit)).standing c k
          = ((e.nested none).standing c j).2.fail (.loopDepthExceeded i limit)) ∧
    ((∀ i, (e.program.enclosing i).length ≤ limit) → ∀ k,
      (e.nested (some limit)).standing c k = (e.nested none).standing c k) ∧
    (∀ higher : Option Nat, (∀ l ∈ higher, limit ≤ l) → ∀ k,
      (∀ i, ((e.nested (some limit)).standing c k).1 ≠ .failed (.loopDepthExceeded i limit)) →
        (e.nested higher).standing c k = (e.nested (some limit)).standing c k) := by
  have h0 := Context.steps_of_fresh hc
  have hself : ∀ l ∈ some limit, limit ≤ l := by simp
  refine ⟨fun k => ?_, fun k h => h.standing_eq h0 hself,
    fun j i h hdue hi k hk => Setup.standing_of_opensInside h0 h hdue hi hk,
    fun h k => ?_, fun higher hhigher k h => ?_⟩
  · exact (keeps_atHeight rfl).inspect_eq (fun _ _ h => h.1.counted h.2) (k + 1)
      ⟨.program 0, List.forall_mem_singleton.mpr (atHeight_begin _ _)⟩
  · exact (Setup.shallow_of_nesting_le (e := e.nested none) h c k).standing_eq h0 hself
  · have hshallow := Setup.shallow_of_standing h0 h
    rw [hshallow.standing_eq h0 hhigher, hshallow.standing_eq h0 hself]

/-- A loop that runs once, and behind it one inside another. -/
def loopInLoop : Setup where
  program := .ofTokens [.literal (.word .upper), .literal (.word .upper), .literal .loopBegin,
    .literal (.word .lower), .literal (.word .lower), .literal .loopEnd, .literal .loopBegin,
    .literal .loopBegin, .literal .output]
  allowance := 9

theorem depth_limit_truncates_loopInLoop :
    Context.fresh 1 = .ok { tape := .zeroed 1 } ∧
    (loopInLoop.nested (some 1)).standing { tape := .zeroed 1 } 7
      = (loopInLoop.nested none).standing { tape := .zeroed 1 } 7 ∧
    ((loopInLoop.nested (some 1)).standing { tape := .zeroed 1 } 9).1
      = .failed (.loopDepthExceeded 7 1) ∧
    ((loopInLoop.nested none).standing { tape := .zeroed 1 } 9).1 = .returned 9 := by
  have h := depth_limit_truncates loopInLoop 1 1 { tape := .zeroed 1 } rfl
  refine ⟨rfl, h.2.1 7 (by decide), ?_, by decide⟩
  rw [h.2.2.1 7 7 (by decide) (by decide) (by decide) 9 (by decide)]
  rfl

end Prairie
