/-
  Prairie.Proofs.Machine.Cancel
  ─────────────────────────────
  **A RAISED FLAG ENDS A RUN BEFORE ITS NEXT TOKEN.**

  A listener may raise the flag when it is handed its `n`-th byte, in the
  middle of an output token.  Compare it with a listener who never does:

    • up to that token the two runs are in step, for the listeners differ at
      the `n`-th byte only (`inStep_of_few`),
    • the token itself leaves the same run behind, but for the flag
      (`step_last_byte`),
    • behind it the flag is looked at before anything else.  If a token stands
      there the run is canceled, whatever its limit says; if none does, there
      is nothing to hold back and the run is over, from inside any number of
      loops (`runFor_last_byte`).

  The `n`-th byte is output at one token and no other (`exists_last_byte`), so
  this tells how every such run ends.
-/
import Prairie.Proofs.Machine.Watching

namespace Prairie

/-! ## §1. Two listeners. -/

/-- A listener who never raises the flag. -/
def Listener.patient : Listener := {}

/-- A listener who raises the flag when the `n`-th byte is handed over. -/
def Listener.hasty (n : Nat) : Listener := { cancelAfter := some n }

/-- The run with the flag up. -/
def Run.flagged (r : Run) : Run := { r with canceled := true }

/-- At any byte but the `n`-th the two listeners are alike. -/
theorem Run.hand_hasty_of_ne {r : Run} {n : Nat} (h : r.sent.size + 1 ≠ n) :
    r.hand (.hasty n) = r.hand .patient := by
  have hne : (some n == some (r.sent.size + 1)) = false := by simp [Ne.symm h]
  unfold Run.hand Listener.hasty Listener.patient
  simp [hne]

theorem Run.hand_hasty_of_eq {r : Run} {n : Nat} (h : r.sent.size + 1 = n) :
    r.hand (.hasty n) = (r.hand .patient).flagged := by
  unfold Run.hand Listener.hasty Listener.patient Run.flagged
  simp [h]

namespace Setup

/-- The same run with someone who listens. -/
def heardBy (e : Setup) (l : Listener) : Setup := { e with listener := some l }

theorem send_heardBy {e : Setup} (h : e.traced = false) (l : Listener) (r : Run) :
    (e.heardBy l).send r = r.hand l := by
  have h' : (e.heardBy l).traced = false := h
  rw [send, h']
  rfl

end Setup

/-! ## §2. One token. -/

namespace Flat

variable {e : Setup} {s t u : Flat} {token : Token} {n j k : Nat}

/-- A token that does not hand over the `n`-th byte does the same for both. -/
theorem step_heardBy_of_ne (htraced : e.traced = false)
    (h : token = .literal .output → s.run.sent.size + 1 ≠ n) :
    s.step (e.heardBy (.hasty n)) token = s.step (e.heardBy .patient) token := by
  cases token with
  | comment text => rfl
  | literal l =>
      cases l with
      | word w => rfl
      | loopBegin => rfl
      | loopEnd => rfl
      | output =>
          have hsent : (e.dispatch s.position (.literal .output)
              (fun c _ => .output c.tape.current) Context.emit s.run).sent.size + 1 ≠ n := by
            rw [Setup.sent_dispatch]
            exact h rfl
          refine congrArg (fun r => Except.ok (Flat.mk _ _ r)) ?_
          rw [Setup.send_heardBy htraced, Setup.send_heardBy htraced]
          exact Run.hand_hasty_of_ne hsent

/-- The token that hands it over leaves the same state, with the flag up. -/
theorem step_last_byte (htraced : e.traced = false) (hn : s.run.sent.size + 1 = n)
    (hs : s.step (e.heardBy .patient) (.literal .output) = .ok u) :
    s.step (e.heardBy (.hasty n)) (.literal .output) = .ok (u.mapRun Run.flagged) := by
  have hsent : (e.dispatch s.position (.literal .output)
      (fun c _ => .output c.tape.current) Context.emit s.run).sent.size + 1 = n := by
    rw [Setup.sent_dispatch]
    exact hn
  injection hs with hs
  rw [← hs]
  refine congrArg (fun r => Except.ok (Flat.mk _ _ r)) ?_
  rw [Setup.send_heardBy htraced, Setup.send_heardBy htraced]
  exact Run.hand_hasty_of_eq hsent

/-- Under any reins a flag that is up cancels the run, whatever their limit. -/
theorem refusal?_of_flag_up {reins : Control} {r : Run} (h : e.control = some reins)
    (hflag : r.canceled = true) : e.refusal? r = some .canceled := by
  unfold Setup.refusal?
  rw [h]
  simp only [hflag, if_pos]

/-! ## §3. The run up to the last byte, and behind it. -/

/-- As long as fewer than `n` bytes have been handed over, the two runs are in
step. -/
theorem inStep_of_few (htraced : e.traced = false)
    (h : ∀ i < k, ∀ t, after (e.heardBy .patient) s i = some t →
      Due (e.heardBy .patient) t (.literal .output) → t.run.sent.size + 1 ≠ n) :
    InStep (e.heardBy .patient) (e.heardBy (.hasty n)) s k :=
  ⟨rfl, rfl, fun i hi t _ ht hdue =>
    step_heardBy_of_ne htraced fun heq => h i hi t ht (heq ▸ hdue)⟩

/-- **Behind the `n`-th byte the flag comes first**: the run is over if the
program is, and canceled otherwise. -/
theorem runFor_last_byte (htraced : e.traced = false) (hcontrol : e.control.isSome)
    (hstep : InStep (e.heardBy .patient) (e.heardBy (.hasty n)) s j)
    (ht : after (e.heardBy .patient) s j = some t)
    (hdue : Due (e.heardBy .patient) t (.literal .output)) (hn : t.run.sent.size + 1 = n)
    (hk : j < k) :
    runFor (e.heardBy (.hasty n)) k s
      = (if t.position + 1 = e.program.size then .returned e.program.size else .failed .canceled,
          (runFor (e.heardBy .patient) (j + 1) s).2.flagged) := by
  obtain ⟨d, rfl⟩ : ∃ d, k = j + (d + 1) := ⟨k - j - 1, by omega⟩
  -- The token cannot fail, so there is a state behind it.
  obtain ⟨u, hu⟩ : ∃ u, t.step (e.heardBy .patient) (.literal .output) = .ok u := ⟨_, rfl⟩
  have hposition : u.position = t.position + 1 := by
    injection hu with hu
    rw [← hu]
  have hafter : after (e.heardBy .patient) s (j + 1) = some u :=
    after_succ_eq_some_iff.mpr ⟨t, ht, next?_eq_some_iff.mpr ⟨_, hdue, hu⟩⟩
  have hdue' : Due (e.heardBy (.hasty n)) t (.literal .output) :=
    ⟨hdue.token_eq, (refusal?_of_control_eq rfl t.run).trans hdue.allowed⟩
  rw [runFor_add (hstep.after_eq.trans ht), run_runFor_of_after hafter,
    runFor_succ_of_ok hdue'.token_eq hdue'.allowed (step_last_byte htraced hn hu)]
  have hlt : t.position < e.program.size := Program.lt_size_of_token? hdue.token_eq
  by_cases hend : t.position + 1 = e.program.size
  · have hnone : e.program.token? (u.mapRun Run.flagged).position = none :=
      token?_eq_none_iff.mpr (by show e.program.size ≤ u.position; omega)
    rw [if_pos hend]
    exact runFor_of_end (e := e.heardBy (.hasty n)) hnone d
  · obtain ⟨next, hnext⟩ := Program.exists_token?_of_lt (p := e.program) (i := u.position) (by omega)
    have htoken : (e.heardBy (.hasty n)).program.token? (u.mapRun Run.flagged).position
        = some next := hnext
    obtain ⟨reins, hreins⟩ := Option.isSome_iff_exists.mp hcontrol
    have hreins' : (e.heardBy (.hasty n)).control = some reins := hreins
    have hrefusal : (e.heardBy (.hasty n)).refusal? (u.mapRun Run.flagged).run
        = some .canceled := refusal?_of_flag_up hreins' rfl
    rw [if_neg hend]
    exact runFor_of_refusal htoken hrefusal d

end Flat

/-! ## §4. Runs of frames. -/

namespace Setup

variable {e : Setup} {c : Context} {n j k : Nat}

/-- In every state of the run, what has been handed over is what was output. -/
theorem sent_after (htraced : e.traced = false) (hout : c.output = #[]) {t : Flat}
    (ht : Flat.after (e.heardBy .patient) (Flat.begin (e.heardBy .patient) c) j = some t) :
    t.run.sent = t.run.context.output := by
  have hbegin : (Flat.begin (e.heardBy .patient) c).run.sent
      = (Flat.begin (e.heardBy .patient) c).run.context.output := hout.symm
  rw [← Flat.run_runFor_of_after ht]
  exact Flat.sent_runFor_of_listener (e := e.heardBy .patient) htraced rfl hbegin j

/-- A token that is due has not been output yet by as many tokens. -/
theorem size_output_lt_of_due (hc : c.steps = 0) {t : Flat}
    (ht : Flat.after e (Flat.begin e c) j = some t) (hdue : Flat.Due e t (.literal .output))
    (hj : j < k) :
    t.run.context.output.size < (e.standing c k).2.context.output.size := by
  have hnext : (e.standing c (j + 1)).2.context = t.run.context.dispatch (.literal .output) := by
    rw [standing_eq_runFor hc, Flat.context_runFor_succ ht hdue, Flat.run_runFor_of_after ht]
  have hsize : (e.standing c (j + 1)).2.context.output.size = t.run.context.output.size + 1 := by
    rw [hnext]
    exact Array.size_push ..
  have hle := (e.prefix_output_standing hc (Nat.succ_le_of_lt hj)).length_le
  rw [Array.length_toList, Array.length_toList, hsize] at hle
  exact hle

/-- **A run that outputs fewer than `n` bytes does not notice.** -/
theorem standing_of_few (htraced : e.traced = false) (hc : c.steps = 0) (hout : c.output = #[])
    (h : ((e.heardBy .patient).standing c k).2.context.output.size < n) :
    (e.heardBy (.hasty n)).standing c k = (e.heardBy .patient).standing c k := by
  rw [standing_eq_runFor hc, standing_eq_runFor hc]
  refine (Flat.inStep_of_few htraced fun i hi t ht hdue => ?_).runFor_eq
  have hlt := size_output_lt_of_due hc ht hdue hi
  have hsent := congrArg Array.size (sent_after htraced hout ht)
  omega

/-- **The `n`-th byte is output at some token.** -/
theorem exists_last_byte (hc : c.steps = 0) (hout : c.output = #[]) (hn : 1 ≤ n)
    (h : n ≤ (e.standing c k).2.context.output.size) :
    ∃ j < k, ∃ t, Flat.after e (Flat.begin e c) j = some t ∧ Flat.Due e t (.literal .output) ∧
      t.run.context.output.size + 1 = n := by
  induction k with
  | zero =>
      have hempty : (e.standing c 0).2.context.output.size = 0 := by
        rw [standing_eq_runFor hc, Flat.run_runFor_zero]
        exact congrArg Array.size hout
      omega
  | succ k ih =>
      by_cases hk : n ≤ (e.standing c k).2.context.output.size
      · obtain ⟨j, hj, hlast⟩ := ih hk
        exact ⟨j, Nat.lt_succ_of_lt hj, hlast⟩
      · -- The token that is due outputs a byte, and only output tokens do.
        cases hdue : e.due? c k with
        | none =>
            have hover := standing_eq_of_over hc (due?_eq_none_iff.mp hdue)
              (Nat.le_succ_of_le (e.steps_standing_le hc k))
            rw [hover] at h
            exact absurd h hk
        | some i =>
            obtain ⟨t, token, ht, hd, -⟩ := (due?_eq_some_iff hc).mp hdue
            have hbefore : (e.standing c k).2.context = t.run.context := by
              rw [standing_eq_runFor hc, Flat.run_runFor_of_after ht]
            have hnext : (e.standing c (k + 1)).2.context = t.run.context.dispatch token := by
              rw [standing_eq_runFor hc, Flat.context_runFor_succ ht hd,
                Flat.run_runFor_of_after ht]
            rw [hbefore] at hk
            rw [hnext] at h
            have htoken : token = .literal .output := by
              refine Decidable.byContradiction fun hne => ?_
              rw [Context.output_dispatch_of_ne hne] at h
              exact hk h
            subst htoken
            have hsize : (t.run.context.dispatch (.literal .output)).output.size
                = t.run.context.output.size + 1 := Array.size_push ..
            exact ⟨k, Nat.lt_succ_self k, t, ht, hd, by omega⟩

/-- **How a run ends whose listener is handed an `n`-th byte.** -/
theorem standing_of_last_byte (htraced : e.traced = false) (hcontrol : e.control.isSome)
    (hc : c.steps = 0) (hout : c.output = #[]) {t : Flat}
    (ht : Flat.after (e.heardBy .patient) (Flat.begin (e.heardBy .patient) c) j = some t)
    (hdue : Flat.Due (e.heardBy .patient) t (.literal .output))
    (hn : t.run.context.output.size + 1 = n) (hk : j < k) :
    (e.heardBy (.hasty n)).standing c k
      = (if t.position + 1 = e.program.size then .returned e.program.size else .failed .canceled,
          ((e.heardBy .patient).standing c (j + 1)).2.flagged) := by
  rw [standing_eq_runFor hc, standing_eq_runFor hc]
  refine Flat.runFor_last_byte htraced hcontrol ?_ ht hdue ?_ hk
  · refine Flat.inStep_of_few htraced fun i hi u hu hdue' => ?_
    have hlt := size_output_lt_of_due hc hu hdue' hi
    rw [standing_eq_runFor hc, Flat.run_runFor_of_after ht] at hlt
    have hsent := congrArg Array.size (sent_after htraced hout hu)
    omega
  · rw [sent_after htraced hout ht]
    exact hn

/-- A run that begins with the flag up dispatches nothing. -/
theorem standing_of_flag_up (hc : c.steps = 0) {reins : Control} (hcontrol : e.control = some reins)
    (hflag : reins.canceled = true) (k : Nat) :
    e.standing c k = (if e.program.size = 0 then .returned e.program.size else .failed .canceled,
      e.begin c) := by
  rw [standing_eq_runFor hc]
  by_cases hempty : e.program.size = 0
  · rw [if_pos hempty]
    exact Flat.runFor_of_end (Flat.token?_eq_none_iff.mpr (Nat.le_of_eq hempty)) k
  · obtain ⟨token, htoken⟩ := Program.exists_token?_of_lt (p := e.program) (i := 0) (by omega)
    have hup : (e.begin c).canceled = true := by
      show e.control.any Control.canceled = true
      rw [hcontrol]
      exact hflag
    rw [if_neg hempty]
    exact Flat.runFor_of_refusal htoken (Flat.refusal?_of_flag_up hcontrol hup) k

end Setup

/-! ## §5. Requests. -/

/-- A request to run under reins, with a flag that is down. -/
def Request.reined (maxSteps : Option Nat) : Request := { control := some { maxSteps } }

/-- A request to run under reins, with the flag up from the first. -/
def Request.flagged (traced : Bool) (maxSteps : Option Nat) : Request :=
  { traced, control := some { maxSteps, canceled := true } }

namespace Machine

/-- The machine with someone who listens. -/
def heardBy (w : Machine) (l : Listener) : Machine := { w with listener := some l }

section

-- The tape can be had.
variable {w : Machine} {c : Context} {maxSteps : Option Nat} {n k : Nat}
  (hc : Context.fresh w.settings.memorySize = .ok c)

include hc

theorem perform_heardBy (l : Listener) (k : Nat) :
    (w.heardBy l).perform (.reined maxSteps) k = (w.heardBy l).conclude false
      (((w.setup (.reined maxSteps) 0).heardBy l).standing c k) :=
  perform_eq_conclude (w := w.heardBy l) hc _ k

/-- A run that outputs fewer than `n` bytes is told alike. -/
theorem perform_of_few
    (h : ((w.heardBy .patient).perform (.reined maxSteps) k).2.context.output.size < n) :
    ((w.heardBy (.hasty n)).perform (.reined maxSteps) k).1
      = ((w.heardBy .patient).perform (.reined maxSteps) k).1 ∧
    ((w.heardBy (.hasty n)).perform (.reined maxSteps) k).2.context
      = ((w.heardBy .patient).perform (.reined maxSteps) k).2.context := by
  have hout : c.output = #[] := by rw [Context.eq_of_fresh hc]
  rw [perform_heardBy hc] at h
  rw [perform_heardBy hc, perform_heardBy hc,
    Setup.standing_of_few rfl (Context.steps_of_fresh hc) hout h]
  exact ⟨rfl, rfl⟩

/-- A run that outputs an `n`-th byte stands right behind it ever after. -/
theorem perform_of_last_byte (hn : 1 ≤ n)
    (h : n ≤ ((w.heardBy .patient).perform (.reined maxSteps) k).2.context.output.size) :
    ∃ j < k, ∃ i, ((w.heardBy .patient).setup (.reined maxSteps) 0).due? c j = some i ∧
      w.program.token? i = some (.literal .output) ∧
      ((w.heardBy .patient).perform (.reined maxSteps) j).2.context.output.size + 1 = n ∧
      ∀ k', j < k' →
        ((w.heardBy (.hasty n)).perform (.reined maxSteps) k').1.ending
          = (if i + 1 = w.program.size then .finished else .failed .canceled) ∧
        ((w.heardBy (.hasty n)).perform (.reined maxSteps) k').2.context
          = ((w.heardBy .patient).perform (.reined maxSteps) (j + 1)).2.context ∧
        ((w.heardBy (.hasty n)).perform (.reined maxSteps) k').2.context.output.size = n ∧
        ((w.heardBy (.hasty n)).perform (.reined maxSteps) k').1.sent
          = ((w.heardBy (.hasty n)).perform (.reined maxSteps) k').2.context.output := by
  have h0 := Context.steps_of_fresh hc
  have hout : c.output = #[] := by rw [Context.eq_of_fresh hc]
  rw [perform_heardBy hc] at h
  obtain ⟨j, hj, t, ht, hdue, hlast⟩ := Setup.exists_last_byte h0 hout hn h
  -- What the run that goes on leaves behind the byte.
  have hcontext : (((w.setup (.reined maxSteps) 0).heardBy .patient).standing c (j + 1)).2.context
      = t.run.context.dispatch (.literal .output) := by
    rw [Setup.standing_eq_runFor h0, Flat.context_runFor_succ ht hdue, Flat.run_runFor_of_after ht]
  have hsent : (((w.setup (.reined maxSteps) 0).heardBy .patient).standing c (j + 1)).2.sent
      = (((w.setup (.reined maxSteps) 0).heardBy .patient).standing c (j + 1)).2.context.output := by
    rw [Setup.standing_eq_runFor h0]
    exact Flat.sent_runFor_of_listener rfl rfl hout.symm (j + 1)
  refine ⟨j, hj, t.position, (Setup.due?_eq_some_iff h0).mpr ⟨t, _, ht, hdue, rfl⟩,
    hdue.token_eq, ?_, fun k' hk' => ?_⟩
  · rw [perform_heardBy hc]
    show (((w.setup (.reined maxSteps) 0).heardBy .patient).standing c j).2.context.output.size + 1
      = n
    rw [Setup.standing_eq_runFor h0, Flat.run_runFor_of_after ht]
    exact hlast
  · rw [perform_heardBy hc, perform_heardBy hc,
      Setup.standing_of_last_byte rfl rfl h0 hout ht hdue hlast hk']
    refine ⟨apply_ite Outcome.ending _ _ _, rfl, ?_, hsent⟩
    show (((w.setup (.reined maxSteps) 0).heardBy .patient).standing c (j + 1)).2.context.output.size
      = n
    rw [hcontext, ← hlast]
    exact Array.size_push ..

/-- A run that begins with the flag up ends where it begins. -/
theorem perform_of_flag_up (traced : Bool) (k : Nat) :
    (w.perform (.flagged traced maxSteps) k).1.ending
      = (if w.program.size = 0 then .finished else .failed .canceled) ∧
    (w.perform (.flagged traced maxSteps) k).2.context = c := by
  have h0 := Context.steps_of_fresh hc
  have hstanding := Setup.standing_of_flag_up (e := w.setup (.flagged traced maxSteps) 0) h0 rfl
    rfl k
  rw [perform_eq_conclude hc, hstanding]
  exact ⟨apply_ite Outcome.ending _ _ _, rfl⟩

end

end Machine

/-- **CANCELING TAKES EFFECT BEFORE THE NEXT TOKEN, AND OUTRANKS THE LIMIT.**
For every program, every tape that can be had and any step limit, take an
untraced run under reins whose listener raises the flag at the `n`-th byte, and
the same run with a listener who never does.  As long as the latter has output
fewer than `n` bytes, the two are told alike.  If it outputs as many, then its
`n`-th byte is output at one token, and however many more tokens may be
dispatched, the former run stands just behind that token: with `n` bytes output
and handed over, and in the very context in which the latter run stands there.
It is canceled, whatever the limit, unless that token is the last one of the
program; then it is over.  A run that begins with the flag up, watched or not,
is canceled before its first token, on a zeroed tape, with nothing output and
no word waiting; only if there is no token at all it is over. -/
theorem cancel_before_next_token (w : Machine) (maxSteps : Option Nat) (c : Context)
    (hc : Context.fresh w.settings.memorySize = .ok c) :
    (∀ n k, ((w.heardBy .patient).perform (.reined maxSteps) k).2.context.output.size < n →
      ((w.heardBy (.hasty n)).perform (.reined maxSteps) k).1
        = ((w.heardBy .patient).perform (.reined maxSteps) k).1 ∧
      ((w.heardBy (.hasty n)).perform (.reined maxSteps) k).2.context
        = ((w.heardBy .patient).perform (.reined maxSteps) k).2.context) ∧
    (∀ n k, 1 ≤ n →
      n ≤ ((w.heardBy .patient).perform (.reined maxSteps) k).2.context.output.size →
      ∃ j < k, ∃ i, ((w.heardBy .patient).setup (.reined maxSteps) 0).due? c j = some i ∧
        w.program.token? i = some (.literal .output) ∧
        ((w.heardBy .patient).perform (.reined maxSteps) j).2.context.output.size + 1 = n ∧
        ∀ k', j < k' →
          ((w.heardBy (.hasty n)).perform (.reined maxSteps) k').1.ending
            = (if i + 1 = w.program.size then .finished else .failed .canceled) ∧
          ((w.heardBy (.hasty n)).perform (.reined maxSteps) k').2.context
            = ((w.heardBy .patient).perform (.reined maxSteps) (j + 1)).2.context ∧
          ((w.heardBy (.hasty n)).perform (.reined maxSteps) k').2.context.output.size = n ∧
          ((w.heardBy (.hasty n)).perform (.reined maxSteps) k').1.sent
            = ((w.heardBy (.hasty n)).perform (.reined maxSteps) k').2.context.output) ∧
    (∀ traced k,
      (w.perform (.flagged traced maxSteps) k).1.ending
        = (if w.program.size = 0 then .finished else .failed .canceled) ∧
      (w.perform (.flagged traced maxSteps) k).2.context
        = { tape := .zeroed (max 1 w.settings.memorySize), pending := none, output := #[],
            steps := 0 }) := by
  refine ⟨fun n k => Machine.perform_of_few hc, fun n k => Machine.perform_of_last_byte hc,
    fun traced k => ?_⟩
  obtain ⟨hending, hcontext⟩ := Machine.perform_of_flag_up hc traced k
  exact ⟨hending, hcontext.trans (Context.eq_of_fresh hc)⟩

/-- Two output marks, the second one the last token. -/
def twoMarks : Machine where
  program := .ofTokens [.literal (.word .upper), .literal (.word .upper), .literal .output,
    .literal .output]
  settings := { memorySize := 1 }

theorem cancel_before_next_token_twoMarks :
    Context.fresh 1 = .ok { tape := .zeroed 1 } ∧
    ((twoMarks.heardBy .patient).perform (.reined (some 3)) 9).1.ending
      = .failed (.stepLimitExceeded 3) ∧
    ((twoMarks.heardBy (.hasty 1)).perform (.reined (some 3)) 9).1.ending = .failed .canceled ∧
    ((twoMarks.heardBy (.hasty 1)).perform (.reined (some 3)) 9).1.sent.size = 1 ∧
    ((twoMarks.heardBy (.hasty 2)).perform (.reined none) 9).1.ending = .finished ∧
    (twoMarks.perform (.flagged true none) 9).1.ending = .failed .canceled := by
  have early := cancel_before_next_token twoMarks (some 3) { tape := .zeroed 1 } rfl
  have late := cancel_before_next_token twoMarks none { tape := .zeroed 1 } rfl
  -- With room for three tokens the first mark is the only one that can be due.
  obtain ⟨j, hj, i, hi, hmark, -, hstand⟩ := early.2.1 1 3 (by decide) (by decide)
  obtain ⟨hending, -, hsize, hsent⟩ := hstand 9 (by omega)
  have hfirst : i + 1 ≠ twoMarks.program.size := by
    match j, hj with
    | 0, _ => cases hi; cases hmark
    | 1, _ => cases hi; cases hmark
    | 2, _ => cases hi; decide
  -- The second byte is output behind one byte, and so at the last mark.
  obtain ⟨j', hj', i', hi', hmark', hone, hstand'⟩ := late.2.1 2 4 (by decide) (by decide)
  have hlast : i' + 1 = twoMarks.program.size := by
    match j', hj' with
    | 0, _ => cases hi'; cases hmark'
    | 1, _ => cases hi'; cases hmark'
    | 2, _ => exact absurd hone (by decide)
    | 3, _ => cases hi'; decide
  refine ⟨rfl, by decide, ?_, ?_, ?_, ?_⟩
  · rw [hending, if_neg hfirst]
  · rw [hsent, hsize]
  · rw [(hstand' 9 (by omega)).1, if_pos hlast]
  · rw [(late.2.2 true 9).1]
    decide

end Prairie
