/-
  Prairie.Proofs.Machine.Returning
  ────────────────────────────────
  **WHERE A FRAME RETURNS.**

  The call of a frame may repeat it, and may enter other loops from it, each
  any number of times.  `Returns` tells such a call without fuel and without
  whatever surrounds the run, by a tree: one node for each dispatched token, and
  a branch for each loop.  With the tree goes the record of what the call
  VISITS: the positions of its tokens, and how many loops inside the frame.

    • `returns_of_evaluate`  a call that returns has such a tree,
    • `Returns.ends`         by induction on the tree: the frame of a bracket
                             that is closed ends where it is closed, on a zero
                             cell; the frame of one that is never closed has
                             swept the rest of the program, once.

  In the second case the frame visits just the tokens that stand directly
  inside its bracket (`Program.directly`), each of them once and in order.
-/
import Prairie.Proofs.Machine.Bounds

namespace Prairie

/-! ## §1. Directly inside a bracket. -/

namespace Program

variable {p : Program} {o i j : Nat}

/-- The tokens from `i` on that stand directly inside the bracket `o`. -/
def directly (p : Program) (o i : Nat) : List Nat :=
  (List.range' i (p.size - i)).filter fun j => (p.enclosing j).head? = some o

theorem directly_of_le (h : p.size ≤ i) : p.directly o i = [] := by
  rw [directly, Nat.sub_eq_zero_of_le h]
  rfl

theorem range'_of_lt (h : i < p.size) :
    List.range' i (p.size - i) = i :: List.range' (i + 1) (p.size - (i + 1)) := by
  rw [show p.size - i = p.size - (i + 1) + 1 by omega, List.range'_succ]

theorem directly_of_innermost (hlt : i < p.size) (h : p.Innermost o i) :
    p.directly o i = i :: p.directly o (i + 1) := by
  rw [directly, range'_of_lt hlt, List.filter_cons_of_pos]
  · rfl
  · exact decide_eq_true (head?_enclosing_eq_some_iff.mpr h)

theorem directly_succ_of_not (h : ¬ p.Innermost o i) : p.directly o i = p.directly o (i + 1) := by
  by_cases hlt : i < p.size
  · rw [directly, range'_of_lt hlt, List.filter_cons_of_neg]
    · rfl
    · rw [decide_eq_true_eq, head?_enclosing_eq_some_iff]
      exact h
  · rw [directly_of_le (Nat.le_of_not_lt hlt), directly_of_le (by omega)]

/-- What is not directly inside may be left out. -/
theorem directly_eq_of_none (hle : i ≤ j) (h : ∀ m, i ≤ m → m < j → ¬ p.Innermost o m) :
    p.directly o i = p.directly o j := by
  induction hle with
  | refl => rfl
  | @step j hle ih =>
      rw [ih fun m hm hmj => h m hm (Nat.lt_succ_of_lt hmj)]
      exact directly_succ_of_not (h j hle (Nat.lt_succ_self j))

end Program

/-! ## §2. The tree of a call. -/

/-- A dispatched token: where it stands, and how many loops inside the frame
that was called. -/
structure Visit where
  level : Nat
  position : Nat
  deriving Repr, DecidableEq

/-- A visit of a loop, as the frame around it tells it. -/
def Visit.deepen (v : Visit) : Visit := { v with level := v.level + 1 }

/-- The frame, called at a position in the context `c`, makes these visits,
returns at `stop` and leaves the context `c'`. -/
inductive Returns (p : Program) :
    Frame → Nat → Context → List Visit → Nat → Context → Prop where
  /-- The program is over. -/
  | fall {frame : Frame} {position : Nat} {c : Context}
      (at_end : p.token? position = none) : Returns p frame position c [] p.size c
  /-- A token that is no bracket. -/
  | stay {frame : Frame} {position stop : Nat} {c c' : Context} {visits : List Visit}
      (token : Token) (token_eq : p.token? position = some token)
      (not_opens : ¬ p.Opens position) (not_closes : ¬ p.Closes position)
      (rest : Returns p frame (position + 1) (c.dispatch token) visits stop c') :
      Returns p frame position c (⟨0, position⟩ :: visits) stop c'
  /-- A loop, and the frame behind it. -/
  | loop {frame : Frame} {position inside stop : Nat} {c c₁ c' : Context}
      {visits visits' : List Visit} (opens : p.Opens position)
      (inner : Returns p ⟨position + 1, some c.tape.head, frame.depth + 1⟩ (position + 1)
        (c.dispatch (.literal .loopBegin)) visits inside c₁)
      (rest : Returns p frame (inside + 1) c₁ visits' stop c') :
      Returns p frame position c (⟨0, position⟩ :: (visits.map .deepen ++ visits')) stop c'
  /-- The tested cell is zero. -/
  | leave {frame : Frame} {position : Nat} {c : Context} (test : Nat)
      (closes : p.Closes position) (test_eq : frame.test = some test)
      (cell_eq : c.tape.cell test = 0) :
      Returns p frame position c [⟨0, position⟩] position (c.dispatch (.literal .loopEnd))
  /-- The tested cell is not zero, and the frame begins again. -/
  | again {frame : Frame} {position stop : Nat} {c c' : Context} {visits : List Visit}
      (test : Nat) (closes : p.Closes position) (test_eq : frame.test = some test)
      (cell_ne : c.tape.cell test ≠ 0)
      (rest : Returns p frame frame.start (c.dispatch (.literal .loopEnd)) visits stop c') :
      Returns p frame position c (⟨0, position⟩ :: visits) stop c'

/-- The visits that the frame makes itself. -/
def ownVisits (visits : List Visit) : List Nat :=
  (visits.filter (·.level = 0)).map (·.position)

@[simp] theorem ownVisits_cons_zero (i : Nat) (visits : List Visit) :
    ownVisits (⟨0, i⟩ :: visits) = i :: ownVisits visits := rfl

@[simp] theorem ownVisits_append (visits visits' : List Visit) :
    ownVisits (visits ++ visits') = ownVisits visits ++ ownVisits visits' := by
  rw [ownVisits, List.filter_append, List.map_append]
  rfl

/-- What a loop visits the frame around it does not visit itself. -/
@[simp] theorem ownVisits_deepen (visits : List Visit) :
    ownVisits (visits.map .deepen) = [] := by
  have h : (visits.map Visit.deepen).filter (·.level = 0) = [] := by
    rw [List.filter_eq_nil_iff]
    intro v hv
    obtain ⟨u, -, rfl⟩ := List.mem_map.mp hv
    simp [Visit.deepen]
  rw [ownVisits, h]
  rfl

/-- The tokens of the visits, in their order. -/
def tokensOf (p : Program) (visits : List Visit) : List Token :=
  visits.filterMap fun v => p.token? v.position

@[simp] theorem tokensOf_deepen (p : Program) (visits : List Visit) :
    tokensOf p (visits.map .deepen) = tokensOf p visits := by
  rw [tokensOf, List.filterMap_map]
  rfl

@[simp] theorem tokensOf_append (p : Program) (visits visits' : List Visit) :
    tokensOf p (visits ++ visits') = tokensOf p visits ++ tokensOf p visits' :=
  List.filterMap_append

theorem tokensOf_cons {p : Program} {i : Nat} {token : Token} (h : p.token? i = some token)
    (level : Nat) (visits : List Visit) :
    tokensOf p (⟨level, i⟩ :: visits) = token :: tokensOf p visits :=
  List.filterMap_cons_some h

/-! ## §3. Calls that return. -/

section

variable {e : Setup} {p : Program} {frame : Frame} {position stop : Nat} {c c' : Context}
  {visits : List Visit}

/-- The visits of a call make its context. -/
theorem Returns.context_eq (h : Returns p frame position c visits stop c') :
    c' = c.replay (tokensOf p visits) := by
  induction h with
  | fall => rfl
  | stay token htoken _ _ _ ih => rw [tokensOf_cons htoken, Context.replay_cons, ih]
  | loop ho _ _ ih ih' =>
      rw [tokensOf_cons ho, Context.replay_cons, tokensOf_append, tokensOf_deepen,
        Context.replay_append, ← ih, ← ih']
  | leave test hc _ _ => rw [tokensOf_cons hc, Context.replay_cons]; rfl
  | again test hc _ _ _ ih => rw [tokensOf_cons hc, Context.replay_cons, ih]

/-- A frame that dispatches a token and returns was let dispatch it. -/
theorem running_of_returned {fuel : Nat} {r r' : Run} {token : Token}
    (ht : e.program.token? position = some token)
    (h : e.evaluate (fuel + 1) frame position r = (.returned stop, r')) :
    e.refusal? r = none ∧ r.context.steps < e.allowance := by
  rw [Setup.evaluate] at h
  simp only [ht] at h
  cases hr : e.refusal? r with
  | some fault =>
      simp only [hr] at h
      cases h
  | none =>
      refine ⟨rfl, Nat.lt_of_not_le fun hspent => ?_⟩
      simp only [hr, if_pos hspent] at h
      cases h

/-- With this much fuel, a call that returns has a tree. -/
def Recorded (e : Setup) (fuel : Nat) : Prop :=
  ∀ (frame : Frame) (position : Nat) (r : Run) (stop : Nat) (r' : Run),
    e.evaluate fuel frame position r = (.returned stop, r') →
    ∃ visits, Returns e.program frame position r.context visits stop r'.context

namespace Recorded

variable {fuel : Nat} {r r' : Run} {token : Token}

theorem of_neither (ih : Recorded e fuel) (ht : e.program.token? position = some token)
    (ho : token ≠ .literal .loopBegin) (hc : token ≠ .literal .loopEnd)
    (h : e.evaluate (fuel + 1) frame position r = (.returned stop, r')) :
    ∃ visits, Returns e.program frame position r.context visits stop r'.context := by
  obtain ⟨hr, ha⟩ := running_of_returned ht h
  obtain ⟨hno, hnc⟩ := Program.neither_of_token? ht ho hc
  have hstay : ∀ r₁ : Run, r₁.context = r.context.dispatch token →
      e.evaluate fuel frame (position + 1) r₁ = (.returned stop, r') →
      ∃ visits, Returns e.program frame position r.context visits stop r'.context := by
    intro r₁ hctx hrest
    obtain ⟨visits, hvisits⟩ := ih _ _ _ _ _ hrest
    exact ⟨_, .stay token ht hno hnc (hctx ▸ hvisits)⟩
  rw [Setup.evaluate] at h
  simp only [ht, hr, if_neg (Nat.not_le_of_lt ha)] at h
  cases token with
  | comment text => exact hstay _ (Setup.context_dispatch ..) h
  | literal l =>
      cases l with
      | word w => exact hstay _ (Setup.context_dispatch ..) h
      | output =>
          refine hstay _ ?_ h
          rw [Setup.context_send, Setup.context_dispatch]
          rfl
      | loopBegin => exact absurd rfl ho
      | loopEnd => exact absurd rfl hc

theorem of_opens (ih : Recorded e fuel) (ho : e.program.Opens position)
    (h : e.evaluate (fuel + 1) frame position r = (.returned stop, r')) :
    ∃ visits, Returns e.program frame position r.context visits stop r'.context := by
  have ht : e.program.token? position = some (.literal .loopBegin) := ho
  obtain ⟨hr, ha⟩ := running_of_returned ht h
  rw [Setup.evaluate] at h
  simp only [ht, hr, if_neg (Nat.not_le_of_lt ha)] at h
  cases hd : e.depthExceeded? frame.depth with
  | some limit =>
      simp only [hd] at h
      cases h
  | none =>
      simp only [hd, Setup.context_dispatch] at h
      -- The frame returns, and so does the loop that it waited for.
      split at h
      next inside r₁ hinner =>
          obtain ⟨visits, hvisits⟩ := ih _ _ _ _ _ hinner
          obtain ⟨visits', hvisits'⟩ := ih _ _ _ _ _ h
          rw [Setup.context_dispatch] at hvisits
          exact ⟨_, .loop ho hvisits hvisits'⟩
      next hnot => exact absurd h (hnot _ _)

theorem of_closes (ih : Recorded e fuel) (hc : e.program.Closes position)
    (h : e.evaluate (fuel + 1) frame position r = (.returned stop, r')) :
    ∃ visits, Returns e.program frame position r.context visits stop r'.context := by
  have ht : e.program.token? position = some (.literal .loopEnd) := hc
  obtain ⟨hr, ha⟩ := running_of_returned ht h
  rw [Setup.evaluate] at h
  simp only [ht, hr, if_neg (Nat.not_le_of_lt ha)] at h
  cases htest : frame.test with
  | none =>
      simp only [htest] at h
      cases h
  | some test =>
      simp only [htest] at h
      by_cases hz : r.context.tape.cell test = 0
      · simp only [if_pos hz] at h
        cases h
        rw [Setup.context_dispatch]
        exact ⟨_, .leave test hc htest hz⟩
      · simp only [if_neg hz] at h
        obtain ⟨visits, hvisits⟩ := ih _ _ _ _ _ h
        rw [Setup.context_dispatch] at hvisits
        exact ⟨_, .again test hc htest hz hvisits⟩

end Recorded

/-- **A call that returns has a tree.** -/
theorem returns_of_evaluate (e : Setup) (fuel : Nat) : Recorded e fuel := by
  induction fuel with
  | zero =>
      intro frame position r stop r' h
      cases h
  | succ fuel ih =>
      intro frame position r stop r' h
      cases ht : e.program.token? position with
      | none =>
          rw [Setup.evaluate] at h
          simp only [ht] at h
          cases h
          exact ⟨[], .fall ht⟩
      | some token =>
          by_cases ho : token = .literal .loopBegin
          · subst ho
            exact ih.of_opens ht h
          · by_cases hc : token = .literal .loopEnd
            · subst hc
              exact ih.of_closes ht h
            · exact ih.of_neither ht ho hc h

end

/-! ## §4. Where a frame ends. -/

/-- The frame of the bracket `o` may stand at `i`: directly inside the bracket
or, if the bracket is never closed, behind the end of the program. -/
def Program.Inside (p : Program) (o i : Nat) : Prop :=
  p.Innermost o i ∨ (p.size < i ∧ ∀ c, ¬ p.Matches o c)

theorem Program.Inside.innermost {p : Program} {o i : Nat} (h : p.Inside o i)
    (hlt : i < p.size) : p.Innermost o i :=
  h.resolve_right fun hover => Nat.lt_asymm hlt hover.1

/-- Each token from `i` on and before `j` is visited at least once. -/
def Visited (visits : List Visit) (i j : Nat) : Prop :=
  ∀ m, i ≤ m → m < j → ∃ v ∈ visits, v.position = m

section

variable {visits visits' : List Visit} {i j m : Nat}

theorem visited_of_le (h : j ≤ i) : Visited visits i j :=
  fun _ hi hj => absurd (Nat.lt_of_le_of_lt hi hj) (Nat.not_lt_of_le h)

theorem Visited.weaken (h : Visited visits i j) (hle : i ≤ m) (v : Visit) :
    Visited (v :: visits) m j := by
  intro n hm hj
  obtain ⟨u, hu, hn⟩ := h n (Nat.le_trans hle hm) hj
  exact ⟨u, List.mem_cons_of_mem v hu, hn⟩

theorem Visited.cons (h : Visited visits (i + 1) j) (level : Nat) :
    Visited (⟨level, i⟩ :: visits) i j := by
  intro n hi hj
  rcases Nat.eq_or_lt_of_le hi with rfl | hlt
  · exact ⟨⟨level, i⟩, List.mem_cons_self, rfl⟩
  · exact h.weaken (Nat.le_refl _) _ n hlt hj

/-- What a loop and the frame behind it visit, one after the other. -/
theorem Visited.append (h : Visited visits i m) (h' : Visited visits' m j) :
    Visited (visits.map .deepen ++ visits') i j := by
  intro n hi hj
  by_cases hm : n < m
  · obtain ⟨v, hv, hn⟩ := h n hi hm
    exact ⟨v.deepen, List.mem_append_left _ (List.mem_map_of_mem hv), hn⟩
  · obtain ⟨v, hv, hn⟩ := h' n (Nat.le_of_not_lt hm) hj
    exact ⟨v, List.mem_append_right _ hv, hn⟩

end

/-- How the frame of the bracket `o` ends that was called at `position` and
tests the cell `test`. -/
inductive Ends (p : Program) (o test position : Nat) (visits : List Visit) (stop : Nat)
    (c' : Context) : Prop where
  /-- The bracket is closed, and the frame ends there. -/
  | home (closed : p.Matches o stop) (cell_eq : c'.tape.cell test = 0)
      (visited : Visited visits position (stop + 1))
  /-- The bracket is never closed, and the frame ends with the program. -/
  | astray (unclosed : ∀ c, ¬ p.Matches o c) (stop_eq : stop = p.size)
      (visited : Visited visits position p.size)
      (own_eq : ownVisits visits = p.directly o position)

namespace Ends

variable {p : Program} {o test position inside stop : Nat} {visits visits' : List Visit}
  {c₁ c' : Context}

theorem stay (hlt : position < p.size) (hin : p.Innermost o position)
    (h : Ends p o test (position + 1) visits stop c') :
    Ends p o test position (⟨0, position⟩ :: visits) stop c' := by
  cases h with
  | home closed cell_eq visited => exact .home closed cell_eq (visited.cons 0)
  | astray unclosed stop_eq visited own_eq =>
      refine .astray unclosed stop_eq (visited.cons 0) ?_
      rw [ownVisits_cons_zero, own_eq, Program.directly_of_innermost hlt hin]

/-- Only a bracket that is closed is repeated. -/
theorem again (hc : p.Matches o position) (h : Ends p o test (o + 1) visits stop c') :
    Ends p o test position (⟨0, position⟩ :: visits) stop c' := by
  cases h with
  | home closed cell_eq visited => exact .home closed cell_eq (visited.weaken hc.2.lt _)
  | astray unclosed _ _ _ => exact absurd hc (unclosed position)

/-- Behind a loop the frame around it is inside its bracket again, unless the
loop took it to the end of the program. -/
theorem inside_succ {t : Nat} (hopens : p.Opens position) (hin : p.Innermost o position)
    (h : Ends p position t (position + 1) visits inside c₁) : p.Inside o (inside + 1) := by
  cases h with
  | home closed _ _ => exact .inl (closed.2.succ_of_closes closed.1 hin)
  | astray unclosed stop_eq _ _ =>
      exact .inr ⟨stop_eq ▸ Nat.lt_succ_self _, Program.unclosed_of_inner hopens hin unclosed⟩

theorem loop {t : Nat} (hopens : p.Opens position) (hin : p.Innermost o position)
    (hinner : Ends p position t (position + 1) visits inside c₁)
    (h : Ends p o test (inside + 1) visits' stop c') :
    Ends p o test position (⟨0, position⟩ :: (visits.map .deepen ++ visits')) stop c' := by
  have hlt := Program.lt_size_of_token? hopens
  have hown : ownVisits (⟨0, position⟩ :: (visits.map .deepen ++ visits'))
      = position :: ownVisits visits' := by
    rw [ownVisits_cons_zero, ownVisits_append, ownVisits_deepen, List.nil_append]
  cases hinner with
  | home closed _ visited =>
      cases h with
      | home closed' cell_eq visited' =>
          exact .home closed' cell_eq ((visited.append visited').cons 0)
      | astray unclosed stop_eq visited' own_eq =>
          refine .astray unclosed stop_eq ((visited.append visited').cons 0) ?_
          -- Nothing up to the end of the loop is directly inside the bracket.
          rw [hown, own_eq, Program.directly_of_innermost hlt hin]
          refine congrArg (position :: ·) (Eq.symm (Program.directly_eq_of_none ?_ ?_))
          · exact Nat.succ_le_succ (Nat.le_of_lt closed.2.lt)
          · exact fun m hm hmi => hin.not_inside closed.2 hm (Nat.le_of_lt_succ hmi)
  | astray unclosed stop_eq visited _ =>
      have hun := Program.unclosed_of_inner hopens hin unclosed
      cases h with
      | home closed' _ _ => exact absurd closed' (hun stop)
      | astray _ stop_eq' _ own_eq =>
          refine .astray hun stop_eq' ((visited.append (visited_of_le (Nat.le_refl _))).cons 0) ?_
          -- Behind the bracket that is never closed, nothing is either.
          rw [hown, own_eq, Program.directly_of_innermost hlt hin,
            Program.directly_of_le (stop_eq ▸ Nat.le_succ _)]
          refine congrArg (position :: ·) (Eq.symm ?_)
          rw [Program.directly_eq_of_none hlt fun m hm _ =>
            Program.not_innermost_of_unclosed hopens hin unclosed hm]
          exact Program.directly_of_le (Nat.le_refl _)

end Ends

/-- **The frame of a bracket ends where the bracket is closed, or else with the
program.** -/
theorem Returns.ends {p : Program} {frame : Frame} {position stop : Nat} {c c' : Context}
    {visits : List Visit} (h : Returns p frame position c visits stop c') :
    ∀ {o test : Nat}, p.Opens o → frame.start = o + 1 → frame.test = some test →
      p.Inside o position → Ends p o test position visits stop c' := by
  -- The induction is on the tree; a loop in the frame is a frame of its own bracket.
  induction h with
  | fall hend =>
      intro o test ho hstart htest hin
      -- If the bracket still stands open here, what closes it would be further on.
      have hsize := Flat.token?_eq_none_iff.mp hend
      refine .astray ?_ rfl (visited_of_le hsize) (Program.directly_of_le hsize).symm
      rcases hin with hin | ⟨-, hun⟩
      · intro c hc
        have hle := hc.le_of_innermost hin
        have hlt := Program.lt_size_of_token? hc.1
        omega
      · exact hun
  | stay token htoken hno hnc rest ih =>
      intro o test ho hstart htest hin
      have hlt := Program.lt_size_of_token? htoken
      have hhere := hin.innermost hlt
      exact (ih ho hstart htest (.inl (hhere.succ_of_neither hno hnc))).stay hlt hhere
  | loop hopens inner rest ih ih' =>
      intro o test ho hstart htest hin
      have hhere := hin.innermost (Program.lt_size_of_token? hopens)
      have hinner := ih hopens rfl rfl (.inl (Program.innermost_succ_of_opens hopens))
      exact hinner.loop hopens hhere (ih' ho hstart htest (hinner.inside_succ hopens hhere))
  | leave test' hc htest' hz =>
      intro o test ho hstart htest hin
      have hhere := hin.innermost (Program.lt_size_of_token? hc)
      obtain rfl : test' = test := Option.some.inj (htest'.symm.trans htest)
      exact .home ⟨hc, hhere⟩ hz ((visited_of_le (Nat.le_refl _)).cons 0)
  | again test' hc htest' hne rest ih =>
      intro o test ho hstart htest hin
      have hhere := hin.innermost (Program.lt_size_of_token? hc)
      have hrest := ih ho hstart htest (hstart ▸ .inl (Program.innermost_succ_of_opens ho))
      rw [hstart] at hrest
      exact hrest.again ⟨hc, hhere⟩

/-- **A FRAME RETURNS AT ITS OWN CLOSING BRACKET.**  For every program, all
settings and all reins, call a frame just behind an opening bracket, with the
head and the cell to be tested on the tape, and let the call return.  Its
dispatched tokens make a tree, and whichever tree it is:

  • the frame has returned at the bracket that closes its own; the tested cell
    is zero, wherever the head is; and every token from the start of the frame
    to that bracket has been dispatched; or
  • nothing closes its bracket; the frame has returned at the end of the
    program; every token up to there has been dispatched, and by the frame
    itself just those that stand directly inside its bracket, each once and in
    their order. -/
theorem frame_returns_at_own_bracket (e : Setup) (fuel o test depth size stop : Nat) (r r' : Run)
    (ho : e.program.Opens o) (htape : r.context.OnTape size) (htest : test < size)
    (h : e.evaluate fuel ⟨o + 1, some test, depth⟩ (o + 1) r = (.returned stop, r')) :
    (∃ visits, Returns e.program ⟨o + 1, some test, depth⟩ (o + 1) r.context visits stop
      r'.context) ∧
    ∀ visits, Returns e.program ⟨o + 1, some test, depth⟩ (o + 1) r.context visits stop
        r'.context →
      r'.context = r.context.replay (tokensOf e.program visits) ∧
      ((e.program.Matches o stop ∧ r'.context.tape.cells[test]? = some 0 ∧
          ∀ i, o < i → i ≤ stop → ∃ v ∈ visits, v.position = i) ∨
        ((∀ c, ¬ e.program.Matches o c) ∧ stop = e.program.size ∧
          (∀ i, o < i → i < e.program.size → ∃ v ∈ visits, v.position = i) ∧
          ownVisits visits = e.program.directly o (o + 1))) := by
  refine ⟨returns_of_evaluate e fuel _ _ _ _ _ h, fun visits hvisits => ?_⟩
  have hcontext := hvisits.context_eq
  have hends := hvisits.ends ho rfl rfl (.inl (Program.innermost_succ_of_opens ho))
  refine ⟨hcontext, ?_⟩
  cases hends with
  | home closed cell_eq visited =>
      refine .inl ⟨closed, ?_, fun i hi hle => visited i hi (Nat.lt_succ_of_le hle)⟩
      have htape' : r'.context.OnTape size := hcontext ▸ htape.replay _
      have hlt : test < r'.context.tape.cells.size := Nat.lt_of_lt_of_eq htest htape'.size_eq.symm
      have hcell : r'.context.tape.cells.getD test 0 = 0 := cell_eq
      rw [Array.getD_eq_getD_getElem?, Array.getElem?_eq_getElem hlt] at hcell
      rw [Array.getElem?_eq_getElem hlt]
      exact congrArg some hcell
  | astray unclosed stop_eq visited own_eq =>
      exact .inr ⟨unclosed, stop_eq, visited, own_eq⟩

/-- A loop that counts the first cell down and leaves the head on the second,
and behind it one that is never closed, with a third in it. -/
def walkingLoops : Setup where
  program := .ofTokens [.literal .loopBegin, .literal (.word .lower), .literal (.word .lower),
    .literal (.word .lower), .literal (.word .upper), .literal .loopEnd, .literal .loopBegin,
    .literal .output, .literal .loopBegin, .literal .output]
  allowance := 20

/-- The first cell holds a one, and the head is on it. -/
def walkingStart : Run := { context := { tape := ⟨#[1, 7], 0⟩ } }

theorem frame_returns_at_own_bracket_walkingLoops :
    walkingLoops.program.Opens 0 ∧ walkingLoops.program.Opens 6 ∧
    walkingStart.context.OnTape 2 ∧
    (∃ r', walkingLoops.evaluate 20 ⟨1, some 0, 1⟩ 1 walkingStart = (.returned 5, r') ∧
      walkingLoops.program.Matches 0 5 ∧ r'.context.tape.cells[0]? = some 0 ∧
      r'.context.tape.head = 1) ∧
    (∃ r' visits, walkingLoops.evaluate 20 ⟨7, some 0, 1⟩ 7 walkingStart = (.returned 10, r') ∧
      Returns walkingLoops.program ⟨7, some 0, 1⟩ 7 walkingStart.context visits 10 r'.context ∧
      ownVisits visits = [7, 8]) := by
  have htape : walkingStart.context.OnTape 2 := by decide
  refine ⟨rfl, rfl, htape, ⟨_, Prod.ext (by decide) rfl, ?_⟩, ?_⟩
  · obtain ⟨⟨visits, hvisits⟩, hall⟩ := frame_returns_at_own_bracket walkingLoops 20 0 0 1 2 5
      walkingStart _ rfl htape (by decide) (Prod.ext (by decide) rfl)
    obtain ⟨hclosed, hcell, -⟩ := (hall visits hvisits).2.resolve_right fun h =>
      absurd h.2.1 (by decide)
    exact ⟨hclosed, hcell, by decide⟩
  · obtain ⟨⟨visits, hvisits⟩, hall⟩ := frame_returns_at_own_bracket walkingLoops 20 6 0 1 2 10
      walkingStart _ rfl htape (by decide) (Prod.ext (by decide) rfl)
    refine ⟨_, visits, Prod.ext (by decide) rfl, hvisits, ?_⟩
    rcases (hall visits hvisits).2 with ⟨hclosed, -⟩ | ⟨-, -, -, hown⟩
    · exact absurd (Program.lt_size_of_token? hclosed.1) (by decide)
    · exact hown

end Prairie
