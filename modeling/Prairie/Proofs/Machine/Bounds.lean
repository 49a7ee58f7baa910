/-
  Prairie.Proofs.Machine.Bounds
  ─────────────────────────────
  **EVERY CALL IS IN BOUNDS.**

  At every call of an evaluation the tape has its size, the head and every
  tested cell are on it, no frame stands further than one token behind the
  end, and every frame is as deep as brackets stand open where it stands
  (`InBounds`).  A call in bounds leads to calls in bounds, so the inspection
  of all calls goes through:

      inspect InBounds  =  some evaluate
-/
import Prairie.Proofs.Machine.Calls

namespace Prairie

/-! ## §1. The tape. -/

namespace Context

/-- The tape has `size` cells and the head is on one of them. -/
structure OnTape (size : Nat) (c : Context) : Prop where
  size_eq : c.tape.size = size
  head_lt : c.tape.head < size

variable {size : Nat} {c : Context}

theorem OnTape.apply (h : c.OnTape size) (op : Operation) : (c.apply op).OnTape size := by
  refine ⟨?_, ?_⟩
  · show (c.tape.apply op).size = size
    rw [Tape.size_apply, h.size_eq]
  · show (c.tape.apply op).head < size
    rw [← h.size_eq]
    exact Tape.head_apply_lt (h.size_eq.symm ▸ h.head_lt) op

/-- **A token keeps the tape and leaves the head on it.** -/
theorem OnTape.dispatch (h : c.OnTape size) (t : Token) : (c.dispatch t).OnTape size := by
  cases t with
  | comment text => exact ⟨h.size_eq, h.head_lt⟩
  | literal l =>
      cases l with
      | output => exact ⟨h.size_eq, h.head_lt⟩
      | loopBegin => exact ⟨h.size_eq, h.head_lt⟩
      | loopEnd => exact ⟨h.size_eq, h.head_lt⟩
      | word w =>
          show (c.read w).count.OnTape size
          cases hp : c.pending with
          | none =>
              rw [read_of_idle hp]
              exact ⟨h.size_eq, h.head_lt⟩
          | some first =>
              rw [read_of_waiting hp]
              have happly := h.apply (.ofPair first w)
              exact ⟨happly.size_eq, happly.head_lt⟩

/-- Tokens keep the tape and leave the head on it. -/
theorem OnTape.replay (h : c.OnTape size) (ts : List Token) : (c.replay ts).OnTape size := by
  induction ts generalizing c with
  | nil => exact h
  | cons t ts ih => exact ih (h.dispatch t)

theorem fresh_of_le {memorySize : Nat} (h : max 1 memorySize ≤ Tape.maxSize) :
    fresh memorySize = .ok { tape := .zeroed (tapeLength memorySize) } := by
  have h' : ¬ Tape.maxSize < tapeLength memorySize := Nat.not_lt_of_le h
  simp only [fresh, if_neg h']

theorem fresh_of_lt {memorySize : Nat} (h : Tape.maxSize < max 1 memorySize) :
    fresh memorySize = .error (.tapeTooLarge (tapeLength memorySize)) := by
  have h' : Tape.maxSize < tapeLength memorySize := h
  simp only [fresh, if_pos h']

theorem onTape_of_fresh {memorySize : Nat} (h : fresh memorySize = .ok c) :
    c.OnTape (max 1 memorySize) := by
  rw [eq_of_fresh h]
  refine ⟨Tape.size_zeroed _, ?_⟩
  show 0 < max 1 memorySize
  omega

end Context

/-! ## §2. Being in bounds. -/

namespace Program

/-- No more brackets stand open than there are tokens before. -/
theorem balance_le (p : Program) (i : Nat) : p.balance i ≤ i := by
  have h : (p.tokens.take i).count (.literal .loopBegin) ≤ i :=
    Nat.le_trans List.count_le_length (List.length_take_le i p.tokens)
  unfold balance
  omega

end Program

/-- A frame of the program `p` on a tape of `size` cells: the cell it tests is
on the tape, it tests none just when it is the whole program, and it is as deep
as brackets stand open at its start. -/
structure Frame.InBounds (p : Program) (size : Nat) (f : Frame) : Prop where
  test_lt : ∀ test ∈ f.test, test < size
  test_eq_none_iff : f.test = none ↔ f.depth = 0
  start_le : f.start ≤ p.size
  depth_eq : (f.depth : Int) = p.balance f.start
  depth_le : f.depth ≤ p.size

/-- A frame stands in bounds: at most one token behind the end, and where it
has a token to dispatch it is as deep as brackets stand open there. -/
structure Activation.InBounds (p : Program) (size : Nat) (a : Activation) : Prop where
  frame : a.frame.InBounds p size
  position_le : a.position ≤ p.size + 1
  depth_eq : a.position < p.size → (a.frame.depth : Int) = p.balance a.position

/-- A call is in bounds: the head is on the tape, and so is every frame that is
alive. -/
structure InBounds (p : Program) (size : Nat) (stack : List Activation) (r : Run) : Prop where
  tape : r.context.OnTape size
  frames : ∀ a ∈ stack, a.InBounds p size

instance (size : Nat) (c : Context) : Decidable (c.OnTape size) :=
  decidable_of_iff (c.tape.size = size ∧ c.tape.head < size)
    ⟨fun h => ⟨h.1, h.2⟩, fun h => ⟨h.size_eq, h.head_lt⟩⟩

instance (p : Program) (size : Nat) (f : Frame) : Decidable (f.InBounds p size) :=
  decidable_of_iff ((∀ test ∈ f.test, test < size) ∧ (f.test = none ↔ f.depth = 0) ∧
      f.start ≤ p.size ∧ (f.depth : Int) = p.balance f.start ∧ f.depth ≤ p.size)
    ⟨fun h => ⟨h.1, h.2.1, h.2.2.1, h.2.2.2.1, h.2.2.2.2⟩,
      fun h => ⟨h.test_lt, h.test_eq_none_iff, h.start_le, h.depth_eq, h.depth_le⟩⟩

instance (p : Program) (size : Nat) (a : Activation) : Decidable (a.InBounds p size) :=
  decidable_of_iff (a.frame.InBounds p size ∧ a.position ≤ p.size + 1 ∧
      (a.position < p.size → (a.frame.depth : Int) = p.balance a.position))
    ⟨fun h => ⟨h.1, h.2.1, h.2.2⟩, fun h => ⟨h.frame, h.position_le, h.depth_eq⟩⟩

instance (p : Program) (size : Nat) (stack : List Activation) (r : Run) :
    Decidable (InBounds p size stack r) :=
  decidable_of_iff (r.context.OnTape size ∧ ∀ a ∈ stack, a.InBounds p size)
    ⟨fun h => ⟨h.1, h.2⟩, fun h => ⟨h.tape, h.frames⟩⟩

/-! ## §3. From call to call. -/

section

variable {e : Setup} {size fuel position : Nat} {around stack : List Activation} {frame : Frame}
  {token : Token} {r r' : Run}

/-- The same frame at another position. -/
theorem Activation.InBounds.move {p : Program} {position' : Nat}
    (h : Activation.InBounds p size ⟨frame, position⟩) (hle : position' ≤ p.size + 1)
    (hdepth : position' < p.size → (frame.depth : Int) = p.balance position') :
    Activation.InBounds p size ⟨frame, position'⟩ :=
  ⟨h.frame, hle, hdepth⟩

/-- A loop that is entered tests the cell under the head and is one deeper. -/
theorem Frame.inBounds_enter {p : Program} {test : Nat} (ho : p.Opens position)
    (hdepth : (frame.depth : Int) = p.balance position) (htest : test < size) :
    Frame.InBounds p size ⟨position + 1, some test, frame.depth + 1⟩ := by
  have hlt : position < p.size := Program.lt_size_of_token? ho
  have hb := Program.balance_succ_of_opens ho
  have hle := p.balance_le (position + 1)
  refine ⟨fun t ht => ?_, by simp, hlt, ?_, ?_⟩
  · injection ht with ht
    exact ht ▸ htest
  · show ((frame.depth + 1 : Nat) : Int) = p.balance (position + 1)
    omega
  · show frame.depth + 1 ≤ p.size
    omega

/-- A frame goes on behind a loop that was entered from it. -/
theorem Activation.InBounds.resume {p : Program} {stop : Nat}
    (h : Activation.InBounds p size ⟨frame, position⟩)
    (hstop : stop = p.size ∨
      (p.Closes stop ∧ ((frame.depth + 1 : Nat) : Int) = p.balance stop)) :
    Activation.InBounds p size ⟨frame, stop + 1⟩ := by
  rcases hstop with rfl | ⟨hc, hdepth⟩
  · exact h.move (Nat.le_refl _) fun hlt => absurd hlt (by omega)
  · have hlt : stop < p.size := Program.lt_size_of_token? hc
    have hb := Program.balance_succ_of_closes hc
    exact h.move (by omega) fun _ => by omega

/-- A call is in bounds if its frame is and those around it are. -/
theorem InBounds.cons {p : Program} {a : Activation} (htape : r.context.OnTape size)
    (ha : a.InBounds p size) (haround : ∀ b ∈ around, b.InBounds p size) :
    InBounds p size (a :: around) r :=
  ⟨htape, List.forall_mem_cons.mpr ⟨ha, haround⟩⟩

theorem InBounds.top {p : Program} {a : Activation} (h : InBounds p size (a :: around) r) :
    a.InBounds p size :=
  h.frames a List.mem_cons_self

theorem InBounds.rest {p : Program} {a : Activation} (h : InBounds p size (a :: around) r) :
    ∀ b ∈ around, b.InBounds p size :=
  fun b hb => h.frames b (List.mem_cons_of_mem a hb)

/-- **A call in bounds leads to calls in bounds.** -/
theorem InBounds.onward {stack stack' : List Activation} (hon : Onward e stack r stack' r')
    (hstack : Stacked stack) (h : InBounds e.program size stack r) :
    InBounds e.program size stack' r' := by
  cases hon with
  | stay token htoken hno hnc hctx =>
      have hlt := Program.lt_size_of_token? htoken
      refine .cons (hctx ▸ h.tape.dispatch token) (h.top.move (by omega) fun _ => ?_) h.rest
      rw [Program.balance_succ_of_neither hno hnc]
      exact h.top.depth_eq hlt
  | enter ho hallowed hctx =>
      have hlt := Program.lt_size_of_token? ho
      have hinner := Frame.inBounds_enter ho (h.top.depth_eq hlt) h.tape.head_lt
      refine .cons (hctx ▸ h.tape.dispatch _) ⟨hinner, ?_, fun _ => hinner.depth_eq⟩ h.frames
      exact Nat.succ_le_succ (Nat.le_of_lt hlt)
  | again test hc htest hne hctx =>
      have hframe := h.top.frame
      exact .cons (hctx ▸ h.tape.dispatch _)
        (h.top.move (Nat.le_succ_of_le hframe.start_le) fun _ => hframe.depth_eq) h.rest
  | leave test hc htest hz hctx =>
      obtain ⟨hwaits, haround⟩ := List.forall_mem_cons.mp h.rest
      have hdepth := h.top.depth_eq (Program.lt_size_of_token? hc)
      rw [hstack.depth_eq] at hdepth
      exact .cons (hctx ▸ h.tape.dispatch _) (hwaits.resume (.inr ⟨hc, hdepth⟩)) haround
  | fall hend =>
      obtain ⟨hwaits, haround⟩ := List.forall_mem_cons.mp h.rest
      exact .cons h.tape (hwaits.resume (.inl rfl)) haround

/-- Frames in bounds, one inside the other: every call hands this to the next. -/
theorem keeps_inBounds (e : Setup) (size : Nat) :
    Keeps e fun stack r => Stacked stack ∧ InBounds e.program size stack r :=
  fun _ _ _ _ hon h => ⟨h.1.onward hon, h.2.onward hon h.1⟩

end

/-! ## §4. Words of the machine. -/

/-- The number of values of a machine word: the 64th power of two. -/
def wordSize : Nat := 18446744073709551616

/-- What word-sized arithmetic asks of a call: each cell that is looked at is on
the tape, nothing is taken from zero, and every successor fits into a word. -/
structure Safe (stack : List Activation) (r : Run) : Prop where
  head_lt : r.context.tape.head < r.context.tape.cells.size
  test_lt : ∀ a ∈ stack, ∀ test ∈ a.frame.test, test < r.context.tape.cells.size
  one_le_cells : 1 ≤ r.context.tape.cells.size
  one_le_steps : 1 ≤ r.context.count.steps
  head_succ_lt : r.context.tape.head + 1 < wordSize
  position_succ_lt : ∀ a ∈ stack, a.position + 1 < wordSize
  depth_succ_lt : ∀ a ∈ stack, a.frame.depth + 1 < wordSize

theorem InBounds.safe {p : Program} {size : Nat} {stack : List Activation} {r : Run}
    (h : InBounds p size stack r) (hsize : size ≤ Tape.maxSize) (hp : 2 * p.size < wordSize) :
    Safe stack r := by
  unfold Tape.maxSize at hsize
  unfold wordSize at hp
  have hcells : r.context.tape.cells.size = size := h.tape.size_eq
  have hhead := h.tape.head_lt
  refine ⟨by omega, fun a ha test ht => ?_, by omega, Nat.le_add_left 1 _, ?_, fun a ha => ?_,
    fun a ha => ?_⟩
  · rw [hcells]
    exact (h.frames a ha).frame.test_lt test ht
  · unfold wordSize
    omega
  · have := (h.frames a ha).position_le
    unfold wordSize
    omega
  · have := (h.frames a ha).frame.depth_le
    unfold wordSize
    omega

/-! ## §5. Whole runs. -/

/-- The call that starts a run is in bounds. -/
theorem inBounds_begin (e : Setup) {memorySize : Nat} {c : Context}
    (hc : Context.fresh memorySize = .ok c) :
    InBounds e.program (max 1 memorySize) [⟨{}, 0⟩] (e.begin c) := by
  have hframe : Frame.InBounds e.program (max 1 memorySize) {} := by
    refine ⟨fun test ht => ?_, by simp, Nat.zero_le _, ?_, Nat.zero_le _⟩
    · cases ht
    · rw [Program.balance_zero]
      rfl
  refine .cons (Context.onTape_of_fresh hc) ⟨hframe, Nat.zero_le _, fun _ => ?_⟩ ?_
  · exact hframe.depth_eq
  · intro a ha
    cases ha

theorem Setup.onTape_standing (e : Setup) {size : Nat} {c : Context} (hc : c.steps = 0)
    (htape : c.OnTape size) (k : Nat) : (e.standing c k).2.context.OnTape size := by
  rw [context_standing hc]
  exact htape.replay _

/-- **EVERY CALL IS IN BOUNDS.**  A tape cannot be had exactly when it would
have more than `Tape.maxSize` cells, the 24th power of two.  If it can be had,
then for every program, all settings and all reins, and however many tokens are
dispatched: the tape keeps its size and the head stays on it; and at every call
of the evaluation, with all frames that are alive, the cells they test are on
the tape, they stand at most one token behind the end, they are as deep as
brackets stand open where they stand, and only the outermost tests no cell.  So
no index is off the tape, and no difference or successor leaves the range of a
word. -/
theorem calls_inBounds (e : Setup) (memorySize : Nat) :
    ((∃ fault, Context.fresh memorySize = .error fault) ↔
      Tape.maxSize < max 1 memorySize) ∧
    (∀ c, Context.fresh memorySize = .ok c →
      (∀ k, (e.standing c k).2.context.tape.size = max 1 memorySize ∧
        (e.standing c k).2.context.tape.head < max 1 memorySize) ∧
      (∀ k, { e with allowance := k }.inspect (InBounds e.program (max 1 memorySize)) (k + 1)
        [] {} 0 (e.begin c) = some (e.standing c k))) ∧
    (max 1 memorySize ≤ Tape.maxSize → 2 * e.program.size < wordSize → ∀ stack r,
      InBounds e.program (max 1 memorySize) stack r → Safe stack r) := by
  refine ⟨⟨fun ⟨fault, hfault⟩ => ?_, fun h => ⟨_, Context.fresh_of_lt h⟩⟩, fun c hc => ?_,
    fun hsize hp stack r h => h.safe hsize hp⟩
  · refine Nat.lt_of_not_le fun hle => ?_
    rw [Context.fresh_of_le hle] at hfault
    cases hfault
  · have htape := e.onTape_standing (Context.steps_of_fresh hc) (Context.onTape_of_fresh hc)
    refine ⟨fun k => ⟨(htape k).size_eq, (htape k).head_lt⟩, fun k => ?_⟩
    exact (keeps_inBounds _ _).inspect_eq (fun _ _ h => h.2) (k + 1)
      ⟨.program 0, inBounds_begin e hc⟩

/-- Two loops that are never closed: the frames around the inner one go on one
token behind the end. -/
def openLoops : Setup where
  program := .ofTokens [.literal .loopBegin, .literal .loopBegin]
  allowance := 5

theorem calls_inBounds_openLoops :
    Context.fresh 3 = .ok { tape := .zeroed 3 } ∧
    openLoops.inspect (InBounds openLoops.program 3) 6 [] {} 0
      (openLoops.begin { tape := .zeroed 3 }) = some (openLoops.standing { tape := .zeroed 3 } 5) ∧
    (openLoops.standing { tape := .zeroed 3 } 5).1 = .returned 2 ∧
    openLoops.inspect (fun stack _ => ∀ a ∈ stack, a.position ≤ openLoops.program.size) 6 [] {} 0
      (openLoops.begin { tape := .zeroed 3 }) = none :=
  ⟨rfl, ((calls_inBounds openLoops 3).2.1 _ rfl).2 5, by decide, by decide⟩

end Prairie
