/-
  Prairie.Proofs.Machine.LongerTape
  ─────────────────────────────────
  **A LONGER TAPE GOES UNNOTICED.**

  Put `d` more zeros behind the last cell of a tape.  Every cell reads as
  before, for off the tape there are nothing but zeros anyway, and of the four
  operations three do not look at the end.  The fourth one does, when it is to
  advance the head and the head is on the last cell already.  So as long as no
  token PUSHES AGAINST THE END, every token respects the extension,

      step (s.extend d)  =  (step s).extend d

  and with the tokens the whole run: it is suspended, over or stopped as
  before, after as many tokens, with the same bytes, the same rows and a tape
  that is the old one with `d` zeros behind it.
-/
import Prairie.Proofs.Machine.Bounds

namespace Prairie

/-! ## §1. Tapes. -/

namespace Tape

variable {t : Tape} {d : Nat}

/-- The tape with `d` zeros behind its last cell. -/
def extend (d : Nat) (t : Tape) : Tape := ⟨t.cells ++ Array.replicate d 0, t.head⟩

@[simp] theorem cell_extend (d : Nat) (t : Tape) (i : Nat) : (t.extend d).cell i = t.cell i := by
  show (t.cells ++ Array.replicate d 0).getD i 0 = t.cells.getD i 0
  rw [Array.getD_eq_getD_getElem?, Array.getD_eq_getD_getElem?, Array.getElem?_append]
  split
  next => rfl
  next hge =>
      -- Off the shorter tape: a zero of the extension, or off the longer one as well.
      rw [Array.getElem?_eq_none (Nat.le_of_not_lt hge), Array.getElem?_replicate]
      split <;> rfl

@[simp] theorem current_extend (d : Nat) (t : Tape) : (t.extend d).current = t.current :=
  cell_extend d t t.head

theorem extend_zeroed (n d : Nat) : (zeroed n).extend d = zeroed (n + d) := by
  simp [zeroed, extend, Array.replicate_append_replicate]

/-- A cell of the shorter tape is changed in place. -/
theorem modify_append {cells : Array UInt8} {i : Nat} (h : i < cells.size) (more : Array UInt8)
    (f : UInt8 → UInt8) : (cells ++ more).modify i f = cells.modify i f ++ more := by
  ext j h1 h2
  · simp
  · simp only [Array.getElem_modify, Array.getElem_append, Array.size_modify]
    grind

/-- **Only an advance from the last cell tells how long the tape is.** -/
theorem apply_extend {op : Operation} (hhead : t.head < t.size)
    (hroom : op = .advance → t.head + 1 ≠ t.size) :
    (t.extend d).apply op = (t.apply op).extend d := by
  obtain ⟨cells, head⟩ := t
  have hlt : head < cells.size := hhead
  cases op with
  | increment => exact congrArg (Tape.mk · head) (modify_append hlt _ _)
  | decrement => exact congrArg (Tape.mk · head) (modify_append hlt _ _)
  | advance =>
      have hne : head + 1 ≠ cells.size := hroom rfl
      refine congrArg (Tape.mk _) ?_
      show min (head + 1) ((cells ++ Array.replicate d 0).size - 1) = min (head + 1) (cells.size - 1)
      rw [Array.size_append]
      omega
  | retreat => rfl

end Tape

/-! ## §2. One token. -/

namespace Context

variable {c : Context} {d : Nat} {t : Token}

/-- The context with `d` zeros behind the last cell of its tape. -/
def extend (d : Nat) (c : Context) : Context := { c with tape := c.tape.extend d }

/-- The operation that a token completes, if it does. -/
def completes? (c : Context) : Token → Option Operation
  | .literal (.word w) => (Operation.accept c.pending w).2
  | _ => none

/-- The token advances the head from the last cell: the end of the tape, and
nothing else, holds the head back. -/
def PushesEnd (c : Context) (t : Token) : Prop :=
  c.completes? t = some .advance ∧ c.tape.head + 1 = c.tape.size

instance (c : Context) (t : Token) : Decidable (c.PushesEnd t) :=
  inferInstanceAs (Decidable (_ ∧ _))

@[simp] theorem moment_extend (d : Nat) (c : Context) : (c.extend d).moment = c.moment := by
  show Moment.mk c.steps c.tape.head (c.tape.extend d).current = _
  rw [Tape.current_extend]
  rfl

/-- A word that does not push against the end is read alike. -/
theorem read_extend {w : Word} (hhead : c.tape.head < c.tape.size)
    (hroom : ¬ c.PushesEnd (.literal (.word w))) :
    (c.extend d).read w = (c.read w).extend d := by
  cases hp : c.pending with
  | none =>
      have hp' : (c.extend d).pending = none := hp
      rw [read_of_idle hp, read_of_idle hp']
      rfl
  | some first =>
      have hp' : (c.extend d).pending = some first := hp
      have hop : c.completes? (.literal (.word w)) = some (.ofPair first w) := by
        show (Operation.accept c.pending w).2 = _
        rw [hp]
        rfl
      have htape : (c.tape.extend d).apply (.ofPair first w)
          = (c.tape.apply (.ofPair first w)).extend d :=
        Tape.apply_extend hhead fun ha hend => hroom ⟨hop.trans (congrArg some ha), hend⟩
      rw [read_of_waiting hp, read_of_waiting hp']
      show Context.mk ((c.tape.extend d).apply (.ofPair first w)) none c.output c.steps = _
      rw [htape]
      rfl

end Context

/-- The action of a word names a head and cells that are the same. -/
theorem Action.ofWord_extend (w : Word) (before after : Context) (d : Nat) :
    ofWord w (before.extend d) (after.extend d) = ofWord w before after := by
  have hb : (before.extend d).tape.current = before.tape.current := Tape.current_extend _ _
  have ha : (after.extend d).tape.current = after.tape.current := Tape.current_extend _ _
  unfold ofWord
  rw [hb, ha]
  rfl

/-- The run with `d` zeros behind the last cell of its tape. -/
def Run.extend (d : Nat) (r : Run) : Run := { r with context := r.context.extend d }

namespace Setup

variable {e : Setup} {r : Run} {d : Nat}

/-- A token whose effect and action are alike is dispatched alike. -/
theorem dispatch_extend {position : Nat} {token : Token} {action : Context → Context → Action}
    {effect : Context → Context} (heffect : effect (r.context.extend d) = (effect r.context).extend d)
    (haction : action (r.context.extend d) ((effect r.context).extend d)
      = action r.context (effect r.context)) :
    e.dispatch position token action effect (r.extend d)
      = (e.dispatch position token action effect r).extend d := by
  unfold dispatch
  split
  · show Run.mk (effect (r.context.extend d)).count r.sent (r.rows.push ⟨(r.context.extend d).moment,
      position, token, action (r.context.extend d) (effect (r.context.extend d))⟩) r.canceled = _
    rw [heffect, haction, Context.moment_extend]
    rfl
  · show Run.mk (effect (r.context.extend d)).count r.sent r.rows r.canceled = _
    rw [heffect]
    rfl

theorem send_extend (e : Setup) (r : Run) (d : Nat) :
    e.send (r.extend d) = (e.send r).extend d := by
  have hcell : (r.extend d).context.tape.current = r.context.tape.current :=
    Tape.current_extend _ _
  unfold send
  split
  · rfl
  · split
    · rfl
    · unfold Run.hand
      rw [hcell]
      rfl

end Setup

namespace Flat

variable {e : Setup} {s : Flat} {token : Token} {d : Nat}

/-- **A token that does not push against the end respects the extension.** -/
theorem step_extend (e : Setup) (hhead : s.run.context.tape.head < s.run.context.tape.size)
    (hroom : ¬ s.run.context.PushesEnd token) :
    (s.mapRun (Run.extend d)).step e token = (s.step e token).map (mapRun (Run.extend d)) := by
  have hcell : ∀ i, (s.mapRun (Run.extend d)).run.context.tape.cell i = s.run.context.tape.cell i :=
    fun i => Tape.cell_extend d _ i
  cases token with
  | comment text =>
      exact congrArg (fun r => Except.ok (Flat.mk _ _ r)) (Setup.dispatch_extend rfl rfl)
  | literal l =>
      cases l with
      | word w =>
          refine congrArg (fun r => Except.ok (Flat.mk _ _ r)) (Setup.dispatch_extend ?_ ?_)
          · exact Context.read_extend hhead hroom
          · exact Action.ofWord_extend w _ _ d
      | output =>
          refine congrArg (fun r => Except.ok (Flat.mk _ _ r)) ?_
          rw [← Setup.send_extend]
          refine congrArg e.send (Setup.dispatch_extend ?_ ?_)
          · show Context.mk _ _ (s.run.context.output.push (s.run.context.tape.extend d).current) _ = _
            rw [Tape.current_extend]
            rfl
          · exact congrArg Action.output (Tape.current_extend d _)
      | loopBegin =>
          cases hd : e.depthExceeded? s.tests.length with
          | some limit =>
              rw [step_tooDeep hd, step_tooDeep (s := s.mapRun (Run.extend d)) hd]
              rfl
          | none =>
              rw [step_enter hd, step_enter (s := s.mapRun (Run.extend d)) hd]
              exact congrArg (fun r => Except.ok (Flat.mk _ _ r)) (Setup.dispatch_extend rfl rfl)
      | loopEnd =>
          cases ht : s.tests with
          | nil =>
              rw [step_unmatched e ht, step_unmatched (s := s.mapRun (Run.extend d)) e ht]
              rfl
          | cons test tests =>
              by_cases hz : s.run.context.tape.cell test = 0
              · rw [step_leave e ht hz,
                  step_leave (s := s.mapRun (Run.extend d)) e ht ((hcell test).trans hz)]
                exact congrArg (fun r => Except.ok (Flat.mk _ _ r)) (Setup.dispatch_extend rfl rfl)
              · have hz' : (s.mapRun (Run.extend d)).run.context.tape.cell test ≠ 0 :=
                  fun h => hz ((hcell test).symm.trans h)
                rw [step_again ht hz rfl,
                  step_again (s := s.mapRun (Run.extend d)) ht hz' rfl]
                refine congrArg (fun r => Except.ok (Flat.mk _ _ r)) (Setup.dispatch_extend rfl ?_)
                exact congrArg (Action.repeated test · _) (hcell test)

/-- The head is on the tape in every state of a run that begins with it there. -/
theorem onTape_after {size : Nat} (h0 : s.run.context.OnTape size) {j : Nat} {t : Flat}
    (h : after e s j = some t) : t.run.context.OnTape size := by
  refine after_induction (P := fun t => t.run.context.OnTape size) h0 (fun u v hu hn => ?_) h
  obtain ⟨token, -, hs⟩ := next?_eq_some_iff.mp hn
  rw [context_step hs]
  exact hu.dispatch token

end Flat

/-! ## §3. Runs. -/

namespace Setup

variable {e : Setup} {c : Context} {d : Nat}

/-- The token that a run dispatches after `j` others pushes against the end. -/
def PushesAt (e : Setup) (c : Context) (j : Nat) : Prop :=
  ∃ i ∈ e.due? c j, ∃ t ∈ e.program.token? i, (e.standing c j).2.context.PushesEnd t

instance (e : Setup) (c : Context) (j : Nat) : Decidable (e.PushesAt c j) :=
  inferInstanceAs (Decidable (∃ i ∈ e.due? c j, ∃ t ∈ e.program.token? i,
    (e.standing c j).2.context.PushesEnd t))

/-- **A run that never pushes against the end respects the extension.** -/
theorem standing_extend {size : Nat} (hc : c.steps = 0) (htape : c.OnTape size) {k : Nat}
    (hroom : ∀ j < k, ¬ e.PushesAt c j) :
    e.standing (c.extend d) k = ((e.standing c k).1, (e.standing c k).2.extend d) := by
  have hc' : (c.extend d).steps = 0 := hc
  have hview : Flat.View e e (Run.extend d) := ⟨rfl, fun _ => rfl, fun _ => rfl⟩
  have hbegin : Flat.begin e (c.extend d) = (Flat.begin e c).mapRun (Run.extend d) := rfl
  rw [standing_eq_runFor hc, standing_eq_runFor hc', hbegin]
  refine Flat.runFor_mapRun hview fun j hj t token ht hdue => ?_
  have hpush : ¬ t.run.context.PushesEnd token := by
    intro hpush
    refine hroom j hj ⟨t.position, ?_, token, hdue.token_eq, ?_⟩
    · exact (due?_eq_some_iff hc).mpr ⟨t, token, ht, hdue, rfl⟩
    · rw [standing_eq_runFor hc, Flat.run_runFor_of_after ht]
      exact hpush
  have hon := Flat.onTape_after (e := e) (s := Flat.begin e c) htape ht
  exact Flat.step_extend e (hon.size_eq.symm ▸ hon.head_lt) hpush

end Setup

/-- The machine with another length of tape. -/
def Machine.onTape (w : Machine) (size : Nat) : Machine :=
  { w with settings := { w.settings with memorySize := size } }

/-- **A LONGER TAPE GOES UNNOTICED.**  Take any program, all settings, any
request with any reins, and a tape of one cell or more.  However many tokens
are dispatched, if none of them has advanced the head from the last cell, then
on any longer tape that can be had the run stands just alike: it is over,
stopped by the same fault or not at its end yet, has handed over the same bytes
and keeps the same table; output, waiting word, head and step count are the
same, and the tape is that of the shorter run with zeros behind it. -/
theorem longer_tape_unnoticed (w : Machine) (q : Request) (size k : Nat)
    (hpos : 1 ≤ w.settings.memorySize) (hle : w.settings.memorySize ≤ size)
    (hmax : size ≤ Tape.maxSize)
    (hroom : ∀ c, Context.fresh w.settings.memorySize = .ok c →
      ∀ j < k, ¬ (w.setup q 0).PushesAt c j) :
    ((w.onTape size).perform q k).1 = (w.perform q k).1 ∧
    ((w.onTape size).perform q k).2.context.output = (w.perform q k).2.context.output ∧
    ((w.onTape size).perform q k).2.context.pending = (w.perform q k).2.context.pending ∧
    ((w.onTape size).perform q k).2.context.steps = (w.perform q k).2.context.steps ∧
    ((w.onTape size).perform q k).2.context.tape.head = (w.perform q k).2.context.tape.head ∧
    ((w.onTape size).perform q k).2.context.tape.cells
      = (w.perform q k).2.context.tape.cells
        ++ Array.replicate (size - w.settings.memorySize) 0 := by
  have hsize : max 1 w.settings.memorySize = w.settings.memorySize := Nat.max_eq_right hpos
  have hsize' : max 1 size = size := Nat.max_eq_right (Nat.le_trans hpos hle)
  -- Both tapes can be had, and the longer one extends the shorter one.
  have hc : Context.fresh w.settings.memorySize = .ok { tape := .zeroed _ } :=
    Context.fresh_of_le (by omega)
  have hc' : Context.fresh size = .ok { tape := .zeroed _ } := Context.fresh_of_le (by omega)
  have htape := Context.onTape_of_fresh hc
  have hroom' := hroom _ hc
  generalize hfresh : ({ tape := .zeroed (Context.tapeLength w.settings.memorySize) } : Context) = c
    at hc htape hroom'
  have hextend : ({ tape := .zeroed (Context.tapeLength size) } : Context)
      = c.extend (size - w.settings.memorySize) := by
    rw [← hfresh]
    refine congrArg (Context.mk · none #[] 0) ?_
    show Tape.zeroed (max 1 size) = _
    rw [Tape.extend_zeroed]
    refine congrArg Tape.zeroed ?_
    show max 1 size = max 1 w.settings.memorySize + _
    omega
  rw [hextend] at hc'
  have h0 : c.steps = 0 := Context.steps_of_fresh hc
  have hrun : (w.onTape size).perform q k
      = (w.onTape size).conclude q.traced ((w.setup q 0).standing (c.extend _) k) :=
    Machine.perform_eq_conclude (w := w.onTape size) hc' q k
  rw [hrun, Machine.perform_eq_conclude hc, Setup.standing_extend h0 htape hroom']
  exact ⟨rfl, rfl, rfl, rfl, rfl, rfl⟩

/-- A loop that counts one cell down and the next one up, and then the head
goes there.  Two cells are room enough.  On one the head is held back, counts
up what it has counted down, and the loop goes on for ever. -/
def stepAside : Machine where
  program := .ofTokens [.literal (.word .upper), .literal (.word .upper), .literal .loopBegin,
    .literal (.word .lower), .literal (.word .upper), .literal (.word .upper),
    .literal (.word .upper), .literal (.word .upper), .literal (.word .lower),
    .literal (.word .lower), .literal (.word .lower), .literal .loopEnd,
    .literal (.word .lower), .literal (.word .upper), .literal .output]
  settings := { memorySize := 2 }

theorem longer_tape_unnoticed_stepAside :
    Context.fresh 2 = .ok { tape := .zeroed 2 } ∧
    (∀ j < 20, ¬ (stepAside.setup {} 0).PushesAt { tape := .zeroed 2 } j) ∧
    (stepAside.setup {} 0).PushesAt { tape := .zeroed 1 } 4 ∧
    ((stepAside.onTape 5).perform {} 20).1.ending = .finished ∧
    ((stepAside.onTape 5).perform {} 20).2.context.tape.head = 1 ∧
    ((stepAside.onTape 5).perform {} 20).2.context.tape.cells = #[0, 1, 0, 0, 0] ∧
    ((stepAside.onTape 1).perform {} 20).1.ending = .suspended := by
  have hroom : ∀ j < 20, ¬ (stepAside.setup {} 0).PushesAt { tape := .zeroed 2 } j := by decide
  have h := longer_tape_unnoticed stepAside {} 5 20 (by decide) (by decide) (by decide)
    fun c hc j hj => by
      injection hc with hc
      rw [← hc]
      exact hroom j hj
  obtain ⟨htold, -, -, -, hhead, hcells⟩ := h
  have htape : (stepAside.perform {} 20).2.context.tape = ⟨#[0, 1], 1⟩ := by decide
  rw [htape] at hhead hcells
  exact ⟨rfl, hroom, by decide, by rw [htold]; decide, hhead, hcells, by decide⟩

end Prairie
