/-
  Prairie.Proofs.Machine.Limit
  ────────────────────────────
  **A STEP LIMIT CUTS A RUN OFF, AND NOTHING ELSE.**

  A run under a limit and the same run without reins go through the same
  states until the limit is reached: the reins are looked at before a token
  and never during one.  So what a limit does is said by one equation, in
  which the free run may dispatch `limit` tokens and the limited one at least
  as many:

      limited run  =  free run, with "suspended" read as "limit exceeded"

  A run of at most `limit` tokens always comes to a stop, so a limited run
  ends.  The flag stays down throughout; it is looked at before the limit.
-/
import Prairie.Proofs.Machine.History

namespace Prairie

/-! ## §1. Reins. -/

/-- A limit on dispatched tokens, and a flag that is down. -/
def Control.limited (limit : Nat) : Control := { maxSteps := some limit }

namespace Setup

variable {e : Setup} {r : Run} {limit : Nat}

/-- The same run under other reins. -/
def under (e : Setup) (control : Option Control) : Setup := { e with control }

theorem refusal?_free (e : Setup) (r : Run) : (e.under none).refusal? r = none :=
  refusal?_of_free rfl r

theorem refusal?_limited_of_lt (hflag : r.canceled = false) (h : r.context.steps < limit) :
    (e.under (some (.limited limit))).refusal? r = none := by
  simp [under, refusal?, Control.limited, hflag, Nat.not_le_of_lt h]

theorem refusal?_limited_of_le (hflag : r.canceled = false) (h : limit ≤ r.context.steps) :
    (e.under (some (.limited limit))).refusal? r = some (.stepLimitExceeded limit) := by
  simp [under, refusal?, Control.limited, hflag, h]

end Setup

namespace Flat

variable {e : Setup} {s : Flat} {limit j k : Nat}

/-- The next state is the same under other reins, if they refuse alike. -/
theorem next?_under {x : Option Control} (h : (e.under x).refusal? s.run = e.refusal? s.run) :
    next? (e.under x) s = next? e s := by
  rw [next?, next?, h]
  rfl

/-- **Reins that refuse alike leave the same states.** -/
theorem after_under {x : Option Control}
    (h : ∀ i < j, ∀ t, after e s i = some t → (e.under x).refusal? t.run = e.refusal? t.run) :
    after (e.under x) s j = after e s j :=
  after_congr fun i hi t ht => next?_under (h i hi t ht)

/-! ## §2. Below the limit. -/

/-- The flag is down in each of the first `j` states and the one behind them. -/
def FlagDown (e : Setup) (s : Flat) (j : Nat) : Prop :=
  ∀ i ≤ j, ∀ t, after e s i = some t → t.run.canceled = false

/-- The states of a free run are those of the limited one, up to the limit. -/
theorem after_limited (hj : s.run.context.steps + j = limit) (hflag : FlagDown (e.under none) s j)
    {i : Nat} (hi : i ≤ j) :
    after (e.under (some (.limited limit))) s i = after (e.under none) s i := by
  refine after_under (e := e.under none) (x := some (.limited limit)) fun i' hi' t ht => ?_
  have hsteps := steps_after ht
  exact Setup.refusal?_limited_of_lt (hflag i' (by omega) t ht) (by omega)

/-- A flag that stays down in a limited run stays down in the free one, as far
as the limit. -/
theorem flagDown_free (hj : s.run.context.steps + j = limit)
    (hflag : FlagDown (e.under (some (.limited limit))) s j) : FlagDown (e.under none) s j := by
  intro i hi t ht
  have hsame : after (e.under none) s i = after (e.under (some (.limited limit))) s i := by
    refine after_under (e := e.under (some (.limited limit))) (x := none) fun i' hi' t' ht' => ?_
    have hsteps := steps_after ht'
    exact (Setup.refusal?_limited_of_lt (hflag i' (by omega) t' ht') (by omega)).symm
  exact hflag i hi t (hsame ▸ ht)

end Flat

/-! ## §3. At the limit. -/

/-- What a limit makes of an outcome: a run that would go on is cut off. -/
def Outcome.cutAt (limit : Nat) : Outcome → Outcome
  | .returned stop => .returned stop
  | .failed fault => .failed fault
  | .suspended _ => .failed (.stepLimitExceeded limit)

namespace Flat

variable {e : Setup} {s : Flat} {limit j k : Nat}

/-- **A limited run is the free run, cut off at the limit.** -/
theorem runFor_limited (hj : s.run.context.steps + j = limit)
    (hflag : FlagDown (e.under none) s j) (hk : j ≤ k) :
    runFor (e.under (some (.limited limit))) k s
      = ((runFor (e.under none) j s).1.cutAt limit, (runFor (e.under none) j s).2) := by
  have hsame : ∀ {i : Nat}, i ≤ j → ∀ {t : Flat}, after (e.under none) s i = some t →
      after (e.under (some (.limited limit))) s i = some t := by
    intro i hi t ht
    rw [after_limited hj hflag hi, ht]
  have hv := verdict (e.under none) j s
  generalize runFor (e.under none) j s = o at hv ⊢
  cases hv with
  | suspended t token reached due =>
      -- The token that is due is one too many.
      obtain ⟨d, rfl⟩ := Nat.exists_eq_add_of_le hk
      have hsteps := steps_after reached
      rw [runFor_add (hsame (Nat.le_refl j) reached)]
      exact runFor_of_refusal (e := e.under (some (.limited limit))) due.token_eq
        (Setup.refusal?_limited_of_le (hflag j (Nat.le_refl j) t reached) (by omega)) d
  | finished i t le reached at_end =>
      obtain ⟨d, rfl⟩ := Nat.exists_eq_add_of_le (Nat.le_trans le hk)
      rw [runFor_add (hsame le reached)]
      exact runFor_of_end (e := e.under (some (.limited limit))) at_end d
  | refused i t token fault le reached token_eq refusal =>
      rw [Setup.refusal?_free] at refusal
      cases refusal
  | faulted i t token fault lt reached due error =>
      obtain ⟨d, rfl⟩ : ∃ d, k = i + (d + 1) := ⟨k - i - 1, by omega⟩
      have hsteps := steps_after reached
      have hle : i ≤ j := Nat.le_of_lt lt
      rw [runFor_add (hsame hle reached)]
      exact runFor_succ_of_error (e := e.under (some (.limited limit))) due.token_eq
        (Setup.refusal?_limited_of_lt (hflag i hle t reached) (by omega)) error d

end Flat

/-! ## §4. Runs of frames. -/

namespace Setup

variable {e : Setup} {c : Context} {limit k : Nat}

/-- The flag is down wherever a run stands. -/
theorem flagDown_of_standing (hc : c.steps = 0)
    (h : ∀ k, (e.standing c k).2.canceled = false) (j : Nat) :
    Flat.FlagDown e (Flat.begin e c) j := by
  intro i _ t ht
  rw [← Flat.run_runFor_of_after ht, ← standing_eq_runFor hc]
  exact h i

/-- A limited run that the flag does not end, as the free run tells it. -/
theorem standing_limited (hc : c.steps = 0)
    (hflag : ∀ k, ((e.under (some (.limited limit))).standing c k).2.canceled = false)
    {limit' : Nat} (hle : limit' ≤ limit) (hk : limit' ≤ k) :
    (e.under (some (.limited limit'))).standing c k
      = (((e.under none).standing c limit').1.cutAt limit',
          ((e.under none).standing c limit').2) := by
  have hdown : Flat.FlagDown (e.under none) (Flat.begin (e.under none) c) limit :=
    Flat.flagDown_free (by show c.steps + limit = limit; omega)
      (flagDown_of_standing hc hflag limit)
  rw [standing_eq_runFor hc, standing_eq_runFor hc]
  refine Flat.runFor_limited (by show c.steps + limit' = limit'; omega) ?_ hk
  exact fun i hi => hdown i (Nat.le_trans hi hle)

end Setup

/-! ## §5. Requests. -/

/-- A request to run without reins. -/
def Request.free (traced : Bool) : Request := { traced }

/-- A request to run under a limit, with a flag that is down. -/
def Request.limited (traced : Bool) (limit : Nat) : Request :=
  { traced, control := some (.limited limit) }

theorem Outcome.ending_cutAt_ne_suspended (limit : Nat) (o : Outcome) :
    (o.cutAt limit).ending ≠ .suspended := by
  cases o <;> simp [cutAt, ending]

theorem Outcome.cutAt_eq_self {o : Outcome} (h : o.ending ≠ .suspended) (limit : Nat) :
    o.cutAt limit = o := by
  cases o with
  | returned stop => rfl
  | failed fault => rfl
  | suspended next => exact absurd rfl h

namespace Machine

section

-- The tape can be had, and nobody raises the flag of the run under the limit.
variable {w : Machine} {c : Context} {traced : Bool} {limit k : Nat}
  (hc : Context.fresh w.settings.memorySize = .ok c)
  (hflag : ∀ k, ((w.setup (.limited traced limit) k).run c).2.canceled = false)

include hc hflag

/-- A request under a limit is told as the free one of `limit` tokens. -/
theorem perform_limited {limit' : Nat} (hle : limit' ≤ limit) (hk : limit' ≤ k) :
    w.perform (.limited traced limit') k
      = w.conclude traced
          (((w.setup (.free traced) 0).standing c limit').1.cutAt limit',
            ((w.setup (.free traced) 0).standing c limit').2) := by
  rw [perform_eq_conclude hc]
  have h := Setup.standing_limited (e := w.setup (.free traced) 0) (k := k)
    (Context.steps_of_fresh hc) hflag hle hk
  exact congrArg (w.conclude traced) h

/-- The counter never passes the limit. -/
theorem steps_perform_limited_le (k : Nat) :
    (w.perform (.limited traced limit) k).2.context.steps ≤ limit := by
  have h0 := Context.steps_of_fresh hc
  rcases Nat.le_total limit k with hk | hk
  · rw [perform_limited hc hflag (Nat.le_refl _) hk]
    exact Setup.steps_standing_le _ h0 limit
  · rw [perform_eq_conclude hc]
    exact Nat.le_trans (Setup.steps_standing_le _ h0 k) hk

/-- A free run that ends within the limit is told alike under the limit. -/
theorem perform_limited_of_short {n : Nat}
    (hover : (w.perform (.free traced) n).1.ending ≠ .suspended)
    (hle : (w.perform (.free traced) n).2.context.steps ≤ limit) (hk : limit ≤ k) :
    w.perform (.limited traced limit) k = w.perform (.free traced) n := by
  rw [perform_eq_conclude hc] at hover hle
  rw [perform_limited hc hflag (Nat.le_refl _) hk, perform_eq_conclude hc,
    Setup.standing_eq_of_over (Context.steps_of_fresh hc) hover hle,
    Outcome.cutAt_eq_self hover]
  rfl

/-- A free run that does not end within the limit is cut off just behind its
first `limit` tokens. -/
theorem perform_limited_of_long
    (hlong : ∀ n, (w.perform (.free traced) n).1.ending ≠ .suspended →
      limit < (w.perform (.free traced) n).2.context.steps) :
    (w.perform (.free traced) limit).1.ending = .suspended ∧
    (w.perform (.free traced) limit).2.context.steps = limit ∧
    ∀ k, limit ≤ k → w.perform (.limited traced limit) k =
      ({ (w.perform (.free traced) limit).1 with ending := .failed (.stepLimitExceeded limit) },
        (w.perform (.free traced) limit).2) := by
  have h0 := Context.steps_of_fresh hc
  have hfree := perform_eq_conclude hc (.free traced) limit
  -- Had the free run ended, it would have ended within the limit.
  have hsusp : (w.perform (.free traced) limit).1.ending = .suspended := by
    refine Decidable.byContradiction fun hover => ?_
    have hlt := hlong limit hover
    rw [hfree] at hlt
    exact Nat.lt_irrefl _ (Nat.lt_of_lt_of_le hlt (Setup.steps_standing_le _ h0 limit))
  rw [hfree] at hsusp ⊢
  obtain ⟨next, hnext⟩ := Outcome.ending_eq_suspended_iff.mp hsusp
  refine ⟨hsusp, Setup.steps_standing_of_suspended h0 hnext, fun k hk => ?_⟩
  rw [perform_limited hc hflag (Nat.le_refl _) hk, hnext]
  rfl

/-- What is output under a limit is output under a higher one. -/
theorem prefix_output_limited {limit' k' : Nat} (hle : limit' ≤ limit) (hk' : limit' ≤ k')
    (hk : limit ≤ k) :
    (w.perform (.limited traced limit') k').2.context.output.toList <+:
      (w.perform (.limited traced limit) k).2.context.output.toList := by
  rw [perform_limited hc hflag hle hk', perform_limited hc hflag (Nat.le_refl _) hk]
  exact Setup.prefix_output_standing (Context.steps_of_fresh hc) hle

end

end Machine

/-- **A STEP LIMIT IS AN EXACT TRUNCATION.**  For every program, every tape
that can be had and every limit, as long as the flag stays down: a run under
the limit ends, whatever else it may dispatch, and counts no more tokens than
the limit.  If the free run ends within the limit, the limited one ends just
so, with the same ending, output, tape, waiting word and table.  Otherwise it
fails with the limit, and stands exactly where the free run stands behind its
first `limit` tokens.  So the output under a limit begins that under a higher
one. -/
theorem perform_limited_truncates (w : Machine) (traced : Bool) (limit : Nat) (c : Context)
    (hc : Context.fresh w.settings.memorySize = .ok c)
    (hflag : ∀ k, ((w.setup (.limited traced limit) k).run c).2.canceled = false) :
    (∀ k, limit ≤ k → (w.perform (.limited traced limit) k).1.ending ≠ .suspended) ∧
    (∀ k, (w.perform (.limited traced limit) k).2.context.steps ≤ limit) ∧
    (∀ n, (w.perform (.free traced) n).1.ending ≠ .suspended →
      (w.perform (.free traced) n).2.context.steps ≤ limit →
      ∀ k, limit ≤ k → w.perform (.limited traced limit) k = w.perform (.free traced) n) ∧
    ((∀ n, (w.perform (.free traced) n).1.ending ≠ .suspended →
        limit < (w.perform (.free traced) n).2.context.steps) →
      (w.perform (.free traced) limit).1.ending = .suspended ∧
      (w.perform (.free traced) limit).2.context.steps = limit ∧
      ∀ k, limit ≤ k → w.perform (.limited traced limit) k =
        ({ (w.perform (.free traced) limit).1 with
            ending := .failed (.stepLimitExceeded limit) },
          (w.perform (.free traced) limit).2)) ∧
    (∀ limit' ≤ limit, ∀ k' k, limit' ≤ k' → limit ≤ k →
      (w.perform (.limited traced limit') k').2.context.output.toList <+:
        (w.perform (.limited traced limit) k).2.context.output.toList) := by
  refine ⟨fun k hk => ?_, Machine.steps_perform_limited_le hc hflag, fun n hover hle k hk => ?_,
    Machine.perform_limited_of_long hc hflag, fun limit' hle k' k hk' hk => ?_⟩
  · rw [Machine.perform_limited hc hflag (Nat.le_refl _) hk]
    exact Outcome.ending_cutAt_ne_suspended limit _
  · exact Machine.perform_limited_of_short hc hflag hover hle hk
  · exact Machine.prefix_output_limited hc hflag hle hk' hk

/-- A loop on a cell that stays 1, and that outputs it each time. -/
def endlessLoop : Machine where
  program := .ofTokens [.literal (.word .upper), .literal (.word .upper), .literal .loopBegin,
    .literal .output, .literal .loopEnd]
  settings := { memorySize := 1 }

theorem perform_limited_truncates_endlessLoop :
    Context.fresh 1 = .ok { tape := .zeroed 1 } ∧
    (∀ k, ((endlessLoop.setup (.limited false 6) k).run { tape := .zeroed 1 }).2.canceled
      = false) ∧
    (∀ k, 6 ≤ k → (endlessLoop.perform (.limited false 6) k).1.ending ≠ .suspended) ∧
    (endlessLoop.perform (.limited false 6) 9).1.ending = .failed (.stepLimitExceeded 6) ∧
    (endlessLoop.perform (.limited false 6) 9).2.context.output = #[1, 1] := by
  have hquiet : ∀ k, (endlessLoop.setup (.limited false 6) k).Quiet :=
    fun k => .inr fun l hl => by cases hl
  have hflag : ∀ k, ((endlessLoop.setup (.limited false 6) k).run
      { tape := .zeroed 1 }).2.canceled = false := by
    intro k
    rw [Setup.run_eq_standing]
    exact (hquiet k).canceled_standing rfl k
  have h := perform_limited_truncates endlessLoop false 6 { tape := .zeroed 1 } rfl hflag
  exact ⟨rfl, hflag, h.1, by decide, by decide⟩

end Prairie
