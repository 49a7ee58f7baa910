/-
  Prairie.Proofs.Machine.Commentary
  ─────────────────────────────────
  **COMMENTS AND SPANS DO NOTHING.**

  A comment is dispatched and counted like any other token, and yet it leaves
  no trace in a run.  A program and the same program without its comments go
  side by side, the second one standing still while the first one passes over
  a comment:

      position i of the program  ↔  position `rank i` of the one without
                                    comments, the number of instructions
                                    before i

  The stacks are equal, the contexts differ at most in their step counts
  (`Skims`), and a jump back lands on related positions because the brackets
  that stand open are related (`enclosing_withoutComments`).

    • `Flat.Skims.skip`, `Flat.Skims.next`  a comment, and an instruction,
    • `Flat.after_skims`  every state of a run has a counterpart, as many
      tokens in as instructions have been dispatched,
    • `Flat.Skims.over`   a run cannot stay among comments for ever: if the
      program without them comes to an end, so does the program,
    • `Setup.evaluate_of_tokens`  a run looks at the tokens of its program
      and not at their spans.
-/
import Prairie.Proofs.Machine.Limit

namespace Prairie

/-! ## §1. A program without its comments. -/

namespace Program

/-- The program with its comments left out. -/
def withoutComments (p : Program) : Program :=
  ⟨p.lexemes.filter fun x => x.token.isInstruction⟩

/-- The number of instructions before token `i`. -/
def rank (p : Program) (i : Nat) : Nat := (p.tokens.take i).countP Token.isInstruction

theorem tokens_withoutComments (p : Program) :
    p.withoutComments.tokens = p.tokens.filter Token.isInstruction := by
  unfold withoutComments tokens
  rw [Array.toList_filter, List.filter_map]
  rfl

variable {p : Program} {i : Nat} {t : Token}

theorem rank_succ (p : Program) (i : Nat) :
    p.rank (i + 1) = p.rank i + (p.token? i).toList.countP Token.isInstruction := by
  unfold rank
  rw [take_succ_tokens, List.countP_append]

theorem rank_succ_of_instruction (h : p.token? i = some t) (ht : t.isInstruction = true) :
    p.rank (i + 1) = p.rank i + 1 := by
  rw [rank_succ, h]
  simp [ht]

theorem rank_succ_of_none (h : p.token? i = none) : p.rank (i + 1) = p.rank i := by
  rw [rank_succ, h]
  rfl

theorem rank_succ_of_comment (h : p.token? i = some t) (ht : t.isInstruction = false) :
    p.rank (i + 1) = p.rank i := by
  rw [rank_succ, h]
  simp [ht]

/-- At the rank of a position stands the first instruction from there on. -/
theorem token?_withoutComments (p : Program) (i : Nat) :
    p.withoutComments.token? (p.rank i) = (p.tokens.drop i).find? Token.isInstruction := by
  have hsplit : p.tokens.filter Token.isInstruction
      = (p.tokens.take i).filter Token.isInstruction
        ++ (p.tokens.drop i).filter Token.isInstruction := by
    rw [← List.filter_append, List.take_append_drop]
  rw [token?_eq, tokens_withoutComments, hsplit, rank, List.countP_eq_length_filter,
    List.getElem?_append_right (Nat.le_refl _), Nat.sub_self, ← List.head?_eq_getElem?,
    List.head?_filter]

/-- An instruction stands at its rank. -/
theorem token?_withoutComments_of_instruction (h : p.token? i = some t)
    (ht : t.isInstruction = true) : p.withoutComments.token? (p.rank i) = some t := by
  rw [token?_eq] at h
  obtain ⟨hi, rfl⟩ := List.getElem?_eq_some_iff.mp h
  rw [token?_withoutComments, List.drop_eq_getElem_cons hi, List.find?_cons_of_pos ht]

/-- Behind the program there is nothing in either of the two. -/
theorem token?_withoutComments_of_none (h : p.token? i = none) :
    p.withoutComments.token? (p.rank i) = none := by
  rw [token?_eq, List.getElem?_eq_none_iff] at h
  rw [token?_withoutComments, List.drop_eq_nil_of_le h, List.find?_nil]

theorem neither_of_comment (h : p.token? i = some t) (ht : t.isInstruction = false) :
    ¬ p.Opens i ∧ ¬ p.Closes i := by
  refine neither_of_token? h ?_ ?_
  · rintro rfl
    cases ht
  · rintro rfl
    cases ht

/-- **The same brackets stand open**, each at its rank. -/
theorem enclosing_withoutComments (p : Program) (i : Nat) :
    p.withoutComments.enclosing (p.rank i) = (p.enclosing i).map p.rank := by
  induction i with
  | zero => rfl
  | succ i ih =>
      cases h : p.token? i with
      | none =>
          have hopens : ¬ p.Opens i := by simp [Opens, h]
          have hcloses : ¬ p.Closes i := by simp [Closes, h]
          rw [rank_succ_of_none h, ih, enclosing_succ_of_neither hopens hcloses]
      | some t =>
          cases ht : t.isInstruction with
          | false =>
              obtain ⟨hopens, hcloses⟩ := neither_of_comment h ht
              rw [rank_succ_of_comment h ht, ih, enclosing_succ_of_neither hopens hcloses]
          | true =>
              rw [rank_succ_of_instruction h ht]
              exact enclosing_succ_map ((token?_withoutComments_of_instruction h ht).trans h.symm) ih

/-- A jump back from a closing bracket lands at the rank of where it landed. -/
theorem opener?_withoutComments {o : Nat} {rest : List Nat} (hc : p.Closes i)
    (h : p.enclosing i = o :: rest) :
    (p.withoutComments.opener? (p.rank i)).getD 0 + 1
      = p.rank ((p.opener? i).getD 0 + 1) := by
  have hc' : p.withoutComments.Closes (p.rank i) := token?_withoutComments_of_instruction hc rfl
  have ho : p.Opens o := (innermost_of_enclosing h).1.opens
  rw [opener?_map (hc'.trans hc.symm) (enclosing_withoutComments p i), opener?_of_enclosing hc h,
    Option.map_some, Option.getD_some, Option.getD_some, rank_succ_of_instruction ho rfl]

end Program

/-! ## §2. Renumbered faults. -/

/-- The same fault, at the token that `f` gives for the one it arose at. -/
def Fault.renumber (f : Nat → Nat) : Fault → Fault
  | unmatchedLoopEnd index => unmatchedLoopEnd (f index)
  | loopDepthExceeded index limit => loopDepthExceeded (f index) limit
  | stepLimitExceeded limit => stepLimitExceeded limit
  | canceled => canceled
  | tapeTooLarge size => tapeTooLarge size

/-- The same ending, its fault renumbered. -/
def Ending.renumber (f : Nat → Nat) : Ending → Ending
  | finished => finished
  | failed fault => failed (fault.renumber f)
  | suspended => suspended

theorem Ending.renumber_ne_suspended {a : Ending} {f : Nat → Nat} (h : a ≠ .suspended) :
    a.renumber f ≠ .suspended := by
  cases a with
  | finished => exact h
  | failed fault =>
      intro hsusp
      cases hsusp
  | suspended => exact absurd rfl h

/-- The same context with another step count. -/
def Context.recounted (c : Context) (steps : Nat) : Context := { c with steps }

/-- A token does not look at the step count. -/
theorem Context.recounted_dispatch (c : Context) (n : Nat) (t : Token) :
    (c.recounted n).dispatch t = (c.dispatch t).recounted (n + 1) := by
  cases t with
  | comment text => rfl
  | literal l =>
      cases l with
      | word w =>
          cases h : c.pending with
          | none =>
              have h' : (c.recounted n).pending = none := h
              show ((c.recounted n).read w).count = (c.read w).count.recounted (n + 1)
              rw [read_of_idle h, read_of_idle h']
              rfl
          | some first =>
              have h' : (c.recounted n).pending = some first := h
              show ((c.recounted n).read w).count = (c.read w).count.recounted (n + 1)
              rw [read_of_waiting h, read_of_waiting h']
              rfl
      | output => rfl
      | loopBegin => rfl
      | loopEnd => rfl

/-! ## §3. Side by side. -/

/-- The same setup with the comments left out of its program. -/
def Setup.withoutComments (e : Setup) : Setup := { e with program := e.program.withoutComments }

namespace Flat

variable {e : Setup} {s s' t t' : Flat} {token : Token} {fault : Fault} {k : Nat}

/-- The state `t` of the program without comments is the counterpart of the
state `s`. -/
structure Skims (e : Setup) (s t : Flat) : Prop where
  position_eq : t.position = e.program.rank s.position
  tests_eq : t.tests = s.tests
  context_eq : t.run.context = s.run.context.recounted t.run.context.steps
  level : Level e s

/-- **A comment is passed over**: the counterpart stays where it is. -/
theorem Skims.skip (h : Skims e s t) (ht : e.program.token? s.position = some token)
    (hi : token.isInstruction = false) :
    ∃ s', s.step e token = .ok s' ∧ s'.position = s.position + 1 ∧ Skims e s' t := by
  cases token with
  | literal l => cases hi
  | comment text =>
      obtain ⟨hp, htests, hc, hlevel⟩ := h
      obtain ⟨s', hs⟩ : ∃ s', s.step e (.comment text) = .ok s' := ⟨_, rfl⟩
      have hlevel' := ((step_ok ht hs).2.level hlevel).1
      injection hs with hs
      subst hs
      refine ⟨_, rfl, rfl, ?_, htests, ?_, hlevel'⟩
      · rw [hp]
        exact (Program.rank_succ_of_comment ht rfl).symm
      · rw [hc, Setup.context_dispatch]
        rfl

/-- Counterparts that both dispatch a token are counterparts behind it, if
they have moved alike. -/
theorem Skims.of_step (h : Skims e s t) (ht : e.program.token? s.position = some token)
    (hs : s.step e token = .ok s') (hs' : t.step e.withoutComments token = .ok t')
    (hp : t'.position = e.program.rank s'.position) (htests : t'.tests = s'.tests) :
    Skims e s' t' := by
  refine ⟨hp, htests, ?_, ((step_ok ht hs).2.level h.level).1⟩
  have hcontext : t'.run.context
      = (s'.run.context).recounted (t.run.context.steps + 1) := by
    rw [context_step hs', context_step hs, h.context_eq, Context.recounted_dispatch]
    rfl
  rw [hcontext]
  rfl

/-- **An instruction moves counterparts alike**, or fails in both with the same
fault, each at its own position. -/
theorem Skims.next (h : Skims e s t) (ht : e.program.token? s.position = some token)
    (hi : token.isInstruction = true) :
    (∃ fault, s.step e token = .error fault ∧
      t.step e.withoutComments token = .error (fault.renumber e.program.rank)) ∨
    (∃ s' t', s.step e token = .ok s' ∧ t.step e.withoutComments token = .ok t' ∧
      Skims e s' t') := by
  have hp := h.position_eq
  have htests := h.tests_eq
  -- The rank of the next position is the next one of the counterpart.
  have hnext : t.position + 1 = e.program.rank (s.position + 1) := by
    rw [hp, Program.rank_succ_of_instruction ht hi]
  have hcell : ∀ i, t.run.context.tape.cell i = s.run.context.tape.cell i := by
    intro i
    rw [h.context_eq]
    rfl
  cases token with
  | comment text => cases hi
  | literal l =>
      cases l with
      | word w => exact .inr ⟨_, _, rfl, rfl, h.of_step ht rfl rfl hnext htests⟩
      | output => exact .inr ⟨_, _, rfl, rfl, h.of_step ht rfl rfl hnext htests⟩
      | loopBegin =>
          have hd : e.withoutComments.depthExceeded? t.tests.length
              = e.depthExceeded? s.tests.length := by
            rw [htests]
            rfl
          cases hs : e.depthExceeded? s.tests.length with
          | some limit =>
              refine .inl ⟨_, step_tooDeep hs, ?_⟩
              rw [step_tooDeep (hd.trans hs), hp]
              rfl
          | none =>
              have hs' := step_enter (hd.trans hs)
              refine .inr ⟨_, _, step_enter hs, hs', h.of_step ht (step_enter hs) hs' hnext ?_⟩
              rw [htests, h.context_eq]
              rfl
      | loopEnd =>
          cases hs : s.tests with
          | nil =>
              refine .inl ⟨_, step_unmatched e hs, ?_⟩
              rw [step_unmatched _ (htests.trans hs), hp]
              rfl
          | cons test tests =>
              by_cases hz : s.run.context.tape.cell test = 0
              · have hleave := step_leave e hs hz
                have hleave' := step_leave e.withoutComments (htests.trans hs)
                  ((hcell test).trans hz)
                exact .inr ⟨_, _, hleave, hleave', h.of_step ht hleave hleave' hnext rfl⟩
              · have hz' : t.run.context.tape.cell test ≠ 0 := by rw [hcell]; exact hz
                have hagain := step_again hs hz (e := e) rfl
                have hagain' := step_again (htests.trans hs) hz' (e := e.withoutComments) rfl
                refine .inr ⟨_, _, hagain, hagain', h.of_step ht hagain hagain' ?_ htests⟩
                -- The stack is level, so there is a bracket to jump back to.
                obtain ⟨o, rest, henc⟩ := h.level.enclosing_cons hs
                show (e.program.withoutComments.opener? t.position).getD 0 + 1 = _
                rw [hp]
                exact Program.opener?_withoutComments ht henc

theorem Skims.skip_of_ok (h : Skims e s t) (ht : e.program.token? s.position = some token)
    (hi : token.isInstruction = false) (hs : s.step e token = .ok s') : Skims e s' t := by
  obtain ⟨s'', hs'', -, h'⟩ := h.skip ht hi
  obtain rfl : s' = s'' := Except.ok.inj (hs.symm.trans hs'')
  exact h'

theorem Skims.next_of_ok (h : Skims e s t) (ht : e.program.token? s.position = some token)
    (hi : token.isInstruction = true) (hs : s.step e token = .ok s') :
    ∃ t', t.step e.withoutComments token = .ok t' ∧ Skims e s' t' := by
  rcases h.next ht hi with ⟨fault, herror, -⟩ | ⟨s'', t', hs'', hs', h'⟩
  · rw [hs] at herror
    cases herror
  · obtain rfl : s' = s'' := Except.ok.inj (hs.symm.trans hs'')
    exact ⟨t', hs', h'⟩

/-- Only an instruction fails, and then it fails in both. -/
theorem Skims.next_of_error (h : Skims e s t) (ht : e.program.token? s.position = some token)
    (hs : s.step e token = .error fault) : token.isInstruction = true ∧
      t.step e.withoutComments token = .error (fault.renumber e.program.rank) := by
  cases hi : token.isInstruction with
  | false =>
      obtain ⟨s', hok, -⟩ := h.skip ht hi
      rw [hs] at hok
      cases hok
  | true =>
      rcases h.next ht hi with ⟨fault', herror, herror'⟩ | ⟨s', t', hok, -⟩
      · obtain rfl : fault = fault' := Except.error.inj (hs.symm.trans herror)
        exact ⟨rfl, herror'⟩
      · rw [hs] at hok
        cases hok

theorem skims_begin (e : Setup) (c : Context) :
    Skims e (begin e c) (begin e.withoutComments c) := ⟨rfl, rfl, rfl, rfl⟩

/-- Counterparts are due the same instruction. -/
theorem Skims.due (h : Skims e s t) (hfree : e.control = none) (hdue : Due e s token)
    (hi : token.isInstruction = true) : Due e.withoutComments t token := by
  refine ⟨?_, Setup.refusal?_of_free hfree t.run⟩
  rw [h.position_eq]
  exact Program.token?_withoutComments_of_instruction hdue.token_eq hi

/-- Counterparts come to the end of their programs together. -/
theorem Skims.at_end (h : Skims e s t) (hend : e.program.token? s.position = none) :
    e.withoutComments.program.token? t.position = none := by
  rw [h.position_eq]
  exact Program.token?_withoutComments_of_none hend

/-! ## §4. Whole runs side by side. -/

section

variable {c : Context} (hc : c.steps = 0) (hfree : e.control = none)

include hc hfree

/-- **Every state has its counterpart**, as many tokens in as instructions have
been dispatched. -/
theorem after_skims :
    ∀ {k : Nat} {u : Flat}, after e (begin e c) k = some u →
      ∃ v, after e.withoutComments (begin e.withoutComments c)
        ((e.history c k).countP Token.isInstruction) = some v ∧ Skims e u v := by
  intro k
  -- The count goes on by one exactly when the counterpart does.
  induction k with
  | zero =>
      intro u h
      injection h with h
      subst h
      exact ⟨_, rfl, skims_begin e c⟩
  | succ k ih =>
      intro u' h
      obtain ⟨u, hu, hn⟩ := after_succ_eq_some_iff.mp h
      obtain ⟨token, hdue, hs⟩ := next?_eq_some_iff.mp hn
      obtain ⟨v, hv, hskims⟩ := ih hu
      rw [Setup.history_succ_of_due hc hu hdue, List.countP_append]
      cases hi : token.isInstruction with
      | false =>
          refine ⟨v, ?_, hskims.skip_of_ok hdue.token_eq hi hs⟩
          simpa [hi] using hv
      | true =>
          obtain ⟨v', hs', hskims'⟩ := hskims.next_of_ok hdue.token_eq hi hs
          have hn' := next?_eq_some_iff.mpr ⟨token, hskims.due hfree hdue hi, hs'⟩
          have hone : [token].countP Token.isInstruction = 1 := by simp [hi]
          rw [hone]
          exact ⟨v', after_succ_eq_some_iff.mpr ⟨v, hv, hn'⟩, hskims'⟩

/-- A run that is over has a counterpart that is over, too. -/
theorem standing_withoutComments {k : Nat} (hover : (e.standing c k).1.ending ≠ .suspended) :
    (e.withoutComments.standing c ((e.history c k).countP Token.isInstruction)).1.ending
      = (e.standing c k).1.ending.renumber e.program.rank ∧
    (e.withoutComments.standing c ((e.history c k).countP Token.isInstruction)).2.context
      = (e.standing c k).2.context.recounted ((e.history c k).countP Token.isInstruction) := by
  have hsteps : ∀ {n v}, after e.withoutComments (begin e.withoutComments c) n = some v →
      v.run.context.steps = n := by
    intro n v hv
    have h0 : (begin e.withoutComments c).run.context.steps = 0 := hc
    rw [steps_after hv, h0, Nat.zero_add]
  rw [Setup.standing_eq_runFor hc] at hover ⊢
  rw [Setup.standing_eq_runFor hc]
  -- Without reins the run is over for one of two reasons, and both carry over.
  have hverdict := verdict e k (begin e c)
  generalize runFor e k (begin e c) = o at hover hverdict ⊢
  cases hverdict with
  | suspended => exact absurd rfl hover
  | refused j u token fault le reached token_eq refusal =>
      rw [Setup.refusal?_of_free hfree] at refusal
      cases refusal
  | finished j u le reached at_end =>
      have hstop := runFor_of_at_end reached at_end
      have hhistory : e.history c k = e.history c j := by
        refine Setup.history_of_over hc ?_ le
        rw [Setup.standing_eq_runFor hc, hstop]
        exact hover
      obtain ⟨v, hv, hskims⟩ := after_skims hc hfree reached
      rw [hhistory, runFor_of_at_end hv (hskims.at_end at_end)]
      refine ⟨rfl, ?_⟩
      rw [← hsteps hv]
      exact hskims.context_eq
  | faulted j u token fault lt reached due error =>
      have hstop := runFor_of_error reached due error
      have hhistory : e.history c k = e.history c (j + 1) := by
        refine Setup.history_of_over hc ?_ lt
        rw [Setup.standing_eq_runFor hc, hstop]
        exact hover
      obtain ⟨v, hv, hskims⟩ := after_skims hc hfree reached
      obtain ⟨hi, error'⟩ := hskims.next_of_error due.token_eq error
      have hone : [token].countP Token.isInstruction = 1 := by simp [hi]
      rw [hhistory, Setup.history_succ_of_due hc reached due, List.countP_append, hone,
        runFor_of_error hv (hskims.due hfree due hi) error']
      refine ⟨rfl, ?_⟩
      show v.run.context.count = _
      rw [hskims.context_eq, hsteps hv]
      rfl

end

/-- **A run cannot stay among comments for ever.**  If the counterpart comes to
an end within `k` tokens, so does the run. -/
theorem Skims.over {s t : Flat} (h : Skims e s t) (hfree : e.control = none) (k : Nat)
    (hover : (runFor e.withoutComments k t).1.ending ≠ .suspended) :
    ∃ n, (runFor e n s).1.ending ≠ .suspended := by
  have hr := Setup.refusal?_of_free hfree s.run
  cases ht : e.program.token? s.position with
  | none =>
      refine ⟨0, ?_⟩
      rw [runFor_of_end ht]
      intro hend
      cases hend
  | some token =>
      have hlt : s.position < e.program.size := by
        refine Nat.lt_of_not_le fun hle => ?_
        rw [token?_eq_none_iff.mpr hle] at ht
        cases ht
      cases hi : token.isInstruction with
      | false =>
          obtain ⟨s', hs, hp, h'⟩ := h.skip ht hi
          obtain ⟨n, hn⟩ := h'.over hfree k hover
          exact ⟨n + 1, by rw [runFor_succ_of_ok ht hr hs]; exact hn⟩
      | true =>
          have hdue := h.due hfree ⟨ht, hr⟩ hi
          cases k with
          | zero =>
              rw [runFor_zero_of_allowed hdue.token_eq hdue.allowed] at hover
              exact absurd rfl hover
          | succ k =>
              rcases h.next ht hi with ⟨fault, hs, -⟩ | ⟨s', t', hs, hs', h'⟩
              · refine ⟨1, ?_⟩
                rw [runFor_succ_of_error ht hr hs]
                intro hend
                cases hend
              · rw [runFor_succ_of_ok hdue.token_eq hdue.allowed hs'] at hover
                obtain ⟨n, hn⟩ := h'.over hfree k hover
                exact ⟨n + 1, by rw [runFor_succ_of_ok ht hr hs]; exact hn⟩
-- Either an instruction is dispatched, or the end of the program comes closer.
termination_by (k, e.program.size - s.position)

end Flat

/-! ## §5. Spans. -/

section

variable {e : Setup} {p q : Program}

theorem Program.token?_of_tokens (h : p.tokens = q.tokens) (i : Nat) : p.token? i = q.token? i := by
  rw [token?_eq, token?_eq, h]

theorem Program.size_of_tokens (h : p.tokens = q.tokens) : p.size = q.size := by
  rw [← length_tokens, ← length_tokens, h]

/-- **A run does not look at spans**: programs with the same tokens run alike,
steps and tables included. -/
theorem Setup.evaluate_of_tokens (h : p.tokens = e.program.tokens) (fuel : Nat) (frame : Frame)
    (i : Nat) (r : Run) :
    { e with program := p }.evaluate fuel frame i r = e.evaluate fuel frame i r := by
  induction fuel generalizing frame i r with
  | zero => rfl
  | succ fuel ih =>
      rw [evaluate, evaluate]
      simp only [ih, Program.token?_of_tokens h, Program.size_of_tokens h]
      rfl

theorem Machine.perform_of_tokens {w : Machine} (h : p.tokens = w.program.tokens) (q : Request)
    (k : Nat) :
    { w with program := p }.perform q k
      = ((w.perform q k).1, { (w.perform q k).2 with program := p }) := by
  cases hc : Context.fresh w.settings.memorySize with
  | error fault =>
      rw [perform_eq_of_error hc]
      exact perform_eq_of_error (w := { w with program := p }) hc q k
  | ok c =>
      have hstanding : ({ w with program := p }.setup q 0).standing c k
          = (w.setup q 0).standing c k :=
        Setup.evaluate_of_tokens (e := { w.setup q 0 with allowance := k }) h (k + 1) {} 0 _
      rw [perform_eq_conclude hc, perform_eq_conclude (w := { w with program := p }) hc, hstanding]
      rfl

end

/-! ## §6. Machines. -/

/-- The same machine with the comments left out of its program. -/
def Machine.withoutComments (w : Machine) : Machine :=
  { w with program := w.program.withoutComments }

namespace Machine

section

-- The tape can be had; the one of the program without comments is the same.
variable {w : Machine} {c : Context} {traced : Bool}
  (hc : Context.fresh w.settings.memorySize = .ok c)

include hc

theorem perform_free (k : Nat) :
    w.perform (.free traced) k = w.conclude traced ((w.setup (.free traced) 0).standing c k) :=
  perform_eq_conclude hc _ k

theorem perform_free_withoutComments (k : Nat) :
    w.withoutComments.perform (.free traced) k = w.withoutComments.conclude traced
      ((w.setup (.free traced) 0).withoutComments.standing c k) :=
  perform_eq_conclude (w := w.withoutComments) hc _ k

/-- The program without comments comes to an end just when the program does. -/
theorem ends_withoutComments_iff :
    (∃ k, (w.perform (.free traced) k).1.ending ≠ .suspended) ↔
      ∃ k, (w.withoutComments.perform (.free traced) k).1.ending ≠ .suspended := by
  have h0 := Context.steps_of_fresh hc
  constructor
  · rintro ⟨k, hk⟩
    rw [perform_free hc] at hk
    have hending := (Flat.standing_withoutComments h0 rfl hk).1
    refine ⟨((w.setup (.free traced) 0).history c k).countP Token.isInstruction, ?_⟩
    rw [perform_free_withoutComments hc]
    show (Setup.standing _ c _).1.ending ≠ _
    rw [hending]
    exact Ending.renumber_ne_suspended hk
  · rintro ⟨k, hk⟩
    rw [perform_free_withoutComments hc] at hk
    have hover : (Flat.runFor (w.setup (.free traced) 0).withoutComments k
        (Flat.begin (w.setup (.free traced) 0).withoutComments c)).1.ending ≠ .suspended := by
      rw [← Setup.standing_eq_runFor h0]
      exact hk
    obtain ⟨n, hn⟩ := (Flat.skims_begin _ c).over rfl k hover
    refine ⟨n, ?_⟩
    rw [perform_free hc]
    show (Setup.standing _ c n).1.ending ≠ _
    rw [Setup.standing_eq_runFor h0]
    exact hn

/-- Two runs that have come to their ends have come to related ends. -/
theorem perform_withoutComments {k k' : Nat}
    (hk : (w.perform (.free traced) k).1.ending ≠ .suspended)
    (hk' : (w.withoutComments.perform (.free traced) k').1.ending ≠ .suspended) :
    (w.withoutComments.perform (.free traced) k').1.ending
      = (w.perform (.free traced) k).1.ending.renumber w.program.rank ∧
    (w.withoutComments.perform (.free traced) k').2.context
      = (w.perform (.free traced) k).2.context.recounted
        (((w.setup (.free traced) 0).history c k).countP Token.isInstruction) := by
  have h0 := Context.steps_of_fresh hc
  rw [perform_free hc] at hk ⊢
  rw [perform_free_withoutComments hc] at hk' ⊢
  obtain ⟨hending, hcontext⟩ := Flat.standing_withoutComments h0 rfl hk
  -- The run without comments has one end, and the counterpart is at it.
  have hover := Ending.renumber_ne_suspended (f := w.program.rank) hk
  have hsame := Setup.standing_unique h0 hk' (fun h => hover (hending.symm.trans h))
  unfold conclude
  rw [hsame]
  exact ⟨hending, hcontext⟩

end

end Machine

/-- **COMMENTS DO NOTHING.**  For every machine: the free run of its program
comes to an end if and only if that of the program without comments does.
Both then end alike, a fault at token `i` being one at the number of
instructions before `i`, and leave the same output, tape and waiting word.
The run without comments has counted the instructions that the other one has
dispatched. -/
theorem comments_do_nothing (w : Machine) (traced : Bool) :
    ((∃ k, (w.perform (.free traced) k).1.ending ≠ .suspended) ↔
      ∃ k, (w.withoutComments.perform (.free traced) k).1.ending ≠ .suspended) ∧
    ∀ k k', (w.perform (.free traced) k).1.ending ≠ .suspended →
      (w.withoutComments.perform (.free traced) k').1.ending ≠ .suspended →
      (w.withoutComments.perform (.free traced) k').1.ending
        = (w.perform (.free traced) k).1.ending.renumber w.program.rank ∧
      (w.withoutComments.perform (.free traced) k').2.context.output
        = (w.perform (.free traced) k).2.context.output ∧
      (w.withoutComments.perform (.free traced) k').2.context.tape
        = (w.perform (.free traced) k).2.context.tape ∧
      (w.withoutComments.perform (.free traced) k').2.context.pending
        = (w.perform (.free traced) k).2.context.pending ∧
      ∀ c, Context.fresh w.settings.memorySize = .ok c →
        (w.withoutComments.perform (.free traced) k').2.context.steps
          = ((w.setup (.free traced) 0).history c k).countP Token.isInstruction := by
  cases hc : Context.fresh w.settings.memorySize with
  | error fault =>
      -- Without a tape there is no run of either of the two.
      have hfree := Machine.perform_eq_of_error hc (.free traced)
      have hbare := Machine.perform_eq_of_error (w := w.withoutComments) hc (.free traced)
      refine ⟨?_, fun k k' _ _ => ?_⟩
      · simp [hfree, hbare]
      · rw [hfree, hbare]
        refine ⟨?_, rfl, rfl, rfl, fun c h => by cases h⟩
        rw [Context.fault_of_fresh hc]
        rfl
  | ok c =>
      refine ⟨Machine.ends_withoutComments_iff hc, fun k k' hk hk' => ?_⟩
      obtain ⟨hending, hcontext⟩ := Machine.perform_withoutComments hc hk hk'
      refine ⟨hending, ?_, ?_, ?_, ?_⟩
      · rw [hcontext]
        rfl
      · rw [hcontext]
        rfl
      · rw [hcontext]
        rfl
      · intro c' h
        injection h with h
        rw [hcontext, h]
        rfl

/-- A loop that is entered once and a bracket too many, with comments
everywhere. -/
def annotated : Machine where
  program := .ofTokens [.comment "first", .literal (.word .upper), .comment "and",
    .literal (.word .upper), .literal .output, .literal .loopBegin, .comment "down",
    .literal (.word .lower), .literal (.word .lower), .literal .loopEnd, .comment "too many",
    .literal .loopEnd]
  settings := { memorySize := 1 }

theorem comments_do_nothing_annotated :
    (annotated.perform (.free false) 12).1.ending = .failed (.unmatchedLoopEnd 11) ∧
    (annotated.withoutComments.perform (.free false) 8).1.ending
      = .failed (.unmatchedLoopEnd 7) ∧
    (annotated.withoutComments.perform (.free false) 8).2.context.output = #[1] ∧
    (annotated.withoutComments.perform (.free false) 8).2.context.steps = 8 ∧
    (annotated.perform (.free false) 12).2.context.steps = 12 := by
  have hlong : (annotated.perform (.free false) 12).1.ending = .failed (.unmatchedLoopEnd 11) := by
    decide
  have hshort : (annotated.withoutComments.perform (.free false) 8).1.ending ≠ .suspended := by
    decide
  obtain ⟨hending, houtput, -, -, hsteps⟩ := (comments_do_nothing annotated false).2 12 8
    (by rw [hlong]; decide) hshort
  refine ⟨hlong, ?_, ?_, ?_, by decide⟩
  · rw [hending, hlong]
    rfl
  · rw [houtput]
    decide
  · rw [hsteps { tape := .zeroed 1 } rfl]
    decide

end Prairie
