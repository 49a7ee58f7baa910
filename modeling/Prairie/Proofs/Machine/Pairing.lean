/-
  Prairie.Proofs.Machine.Pairing
  ──────────────────────────────
  **WORDS PAIR UP IN THE ORDER IN WHICH THEY ARE DISPATCHED.**

  Which words make a pair is not to be seen in the program: a pair may be
  split by a bracket, a comment or an output, and a loop with an odd number
  of words pairs them differently each time around.  It is decided by the
  dispatched words alone.  Let `ws` be all of them, in order:

      tape     =  zeroed tape, and on it what the pairs of `ws` spell
      waiting  =  the last of `ws`, if their number is odd
      output   =  at each output mark, the current cell of the tape that the
                  words before it have spelled

  The word that waits is read as standing in front of the words still to
  come; then each of the three is one induction along the dispatched tokens.

  What a pair spells stops at the bounds and never wraps (`Saturates`):

      the value of a cell    from 0 to 255
      the head               from the first cell to the last one
-/
import Prairie.Proofs.Machine.History

namespace Prairie

/-! ## §1. The words among tokens. -/

/-- The word that a token is, if it is one. -/
def Token.word? : Token → Option Word
  | .literal (.word w) => some w
  | _ => none

/-- The words among tokens, in their order. -/
def Token.words (ts : List Token) : List Word := ts.filterMap Token.word?

theorem Token.words_cons (t : Token) (ts : List Token) :
    words (t :: ts) = t.word?.toList ++ words ts := by
  rw [words, List.filterMap_cons]
  cases t.word? <;> rfl

/-! ## §2. Pairs of words. -/

/-- Carry out what words spell, taken in pairs from the first on.  A last word
without a partner spells nothing. -/
def Tape.spell : List Word → Tape → Tape
  | first :: second :: rest, t => spell rest (t.apply (.ofPair first second))
  | _, t => t

/-- The word left without a partner: the last one, if their number is odd. -/
def Word.unpaired (ws : List Word) : Option Word :=
  if ws.length % 2 = 0 then none else ws.getLast?

/-- A first pair has no say in which word is left. -/
theorem Word.unpaired_cons_cons (first second : Word) (ws : List Word) :
    unpaired (first :: second :: ws) = unpaired ws := by
  have hlen : (first :: second :: ws).length % 2 = ws.length % 2 := by
    simp only [List.length_cons]
    omega
  rw [unpaired, unpaired, hlen]
  split
  next => rfl
  next hodd =>
      -- An odd number of words is not none at all.
      cases ws with
      | nil => exact absurd rfl hodd
      | cons w ws => rfl

/-! ## §3. What a pair does. -/

namespace Operation

/-- The value of the cell under the head after the operation. -/
def cellAfter : Operation → Nat → Nat
  | .increment, value => min (value + 1) 255
  | .decrement, value => value - 1
  | .advance, value | .retreat, value => value

/-- Where the head of a tape of `size` cells stands after the operation. -/
def headAfter (size : Nat) : Operation → Nat → Nat
  | .advance, head => min (head + 1) (size - 1)
  | .retreat, head => head - 1
  | .increment, head | .decrement, head => head

/-- An operation takes one tape to the other: the cell under the head and the
head itself go on in whole numbers and stop at the bounds, and everything else
stays as it is. -/
structure Saturates (op : Operation) (before after : Tape) : Prop where
  size_eq : after.size = before.size
  head_eq : after.head = op.headAfter before.size before.head
  current_eq : (after.cell before.head).toNat = op.cellAfter before.current.toNat
  cell_eq : ∀ i, i ≠ before.head → after.cell i = before.cell i

end Operation

namespace Tape

variable {t : Tape} {ws : List Word}

theorem cell_modify_self (h : t.head < t.size) (f : UInt8 → UInt8) :
    ({ t with cells := t.cells.modify t.head f } : Tape).cell t.head = f t.current := by
  have hcell : t.cells[t.head]? = some t.cells[t.head] := Array.getElem?_eq_getElem h
  simp [current, cell, Array.getD_eq_getD_getElem?, Array.getElem?_modify, hcell]

theorem cell_modify_of_ne {i : Nat} (h : i ≠ t.head) (f : UInt8 → UInt8) :
    ({ t with cells := t.cells.modify t.head f } : Tape).cell i = t.cell i := by
  simp [cell, Array.getD_eq_getD_getElem?, Array.getElem?_modify, Ne.symm h]

/-- **An operation stops at the bounds**, with the head on the tape. -/
theorem saturates_apply (h : t.head < t.size) (op : Operation) : op.Saturates t (t.apply op) := by
  cases op with
  | increment =>
      refine ⟨size_apply _ t, rfl, ?_, fun i hi => cell_modify_of_ne hi saturatingSucc⟩
      show (({ t with cells := t.cells.modify t.head saturatingSucc } : Tape).cell t.head).toNat = _
      rw [cell_modify_self h, toNat_saturatingSucc]
      rfl
  | decrement =>
      refine ⟨size_apply _ t, rfl, ?_, fun i hi => cell_modify_of_ne hi saturatingPred⟩
      show (({ t with cells := t.cells.modify t.head saturatingPred } : Tape).cell t.head).toNat = _
      rw [cell_modify_self h, toNat_saturatingPred]
      rfl
  | advance => exact ⟨rfl, rfl, rfl, fun i _ => rfl⟩
  | retreat => exact ⟨rfl, rfl, rfl, fun i _ => rfl⟩

/-- Too few words for a pair spell nothing. -/
theorem spell_of_short (h : ws.length ≤ 1) (t : Tape) : t.spell ws = t := by
  cases ws with
  | nil => rfl
  | cons w ws =>
      cases ws with
      | nil => rfl
      | cons w' ws =>
          simp only [List.length_cons] at h
          omega

/-- Pairs leave the head on the tape. -/
theorem head_spell_lt (h : t.head < t.size) (ws : List Word) :
    (t.spell ws).head < (t.spell ws).size := by
  induction ws, t using spell.induct with
  | case1 first second rest t ih =>
      refine ih ?_
      rw [size_apply]
      exact head_apply_lt h _
  | case2 ws t hshort =>
      rw [spell]
      · exact h
      · exact hshort

/-- Behind whole pairs the words are paired as if they stood alone. -/
theorem spell_append (h : ws.length % 2 = 0) (t : Tape) (vs : List Word) :
    t.spell (ws ++ vs) = (t.spell ws).spell vs := by
  induction ws, t using spell.induct with
  | case1 first second rest t ih =>
      refine ih ?_
      simp only [List.length_cons] at h
      omega
  | case2 ws t hshort =>
      cases ws with
      | nil => rfl
      | cons w ws =>
          cases ws with
          | nil => cases h
          | cons w' ws => exact absurd rfl (hshort w w' ws)

/-- **One more pair does one operation more**, whatever word may be left
behind it. -/
theorem saturates_spell (ht : t.head < t.size) (h : ws.length % 2 = 0) (first second : Word)
    {rest : List Word} (hrest : rest.length ≤ 1) :
    (Operation.ofPair first second).Saturates (t.spell ws)
      (t.spell (ws ++ first :: second :: rest)) := by
  have hpair : t.spell (ws ++ first :: second :: rest)
      = (t.spell ws).apply (.ofPair first second) := by
    rw [spell_append h, spell, spell_of_short hrest]
  rw [hpair]
  exact saturates_apply (head_spell_lt ht ws) _

end Tape

/-! ## §4. One token. -/

namespace Context

/-- **One token takes its word to those still to be paired.**  With the word
that waits in front of the words to come, it makes no difference whether the
token has been dispatched already. -/
theorem dispatch_pairs (c : Context) (t : Token) (ws : List Word) :
    (c.dispatch t).tape.spell ((c.dispatch t).pending.toList ++ ws)
      = c.tape.spell (c.pending.toList ++ (t.word?.toList ++ ws)) ∧
    Word.unpaired ((c.dispatch t).pending.toList ++ ws)
      = Word.unpaired (c.pending.toList ++ (t.word?.toList ++ ws)) := by
  cases t with
  | comment text => exact ⟨rfl, rfl⟩
  | literal l =>
      cases l with
      | output => exact ⟨rfl, rfl⟩
      | loopBegin => exact ⟨rfl, rfl⟩
      | loopEnd => exact ⟨rfl, rfl⟩
      | word w =>
          have hd : c.dispatch (.literal (.word w)) = (c.read w).count := rfl
          cases hp : c.pending with
          | none =>
              rw [hd, read_of_idle hp]
              exact ⟨rfl, rfl⟩
          | some first =>
              rw [hd, read_of_waiting hp]
              exact ⟨rfl, (Word.unpaired_cons_cons first w ws).symm⟩

/-! ## §5. All tokens. -/

/-- **The tape is what the pairs have spelled, and the word that waits is the
one left over.** -/
theorem replay_pairs (c : Context) (ts : List Token) :
    (c.replay ts).tape = c.tape.spell (c.pending.toList ++ Token.words ts) ∧
    (c.replay ts).pending = Word.unpaired (c.pending.toList ++ Token.words ts) := by
  induction ts generalizing c with
  | nil =>
      rw [replay_nil]
      cases hp : c.pending <;> exact ⟨rfl, rfl⟩
  | cons t ts ih =>
      obtain ⟨htape, hpending⟩ := ih (c.dispatch t)
      obtain ⟨hspell, hleft⟩ := c.dispatch_pairs t (Token.words ts)
      rw [replay_cons, Token.words_cons, htape, hpending]
      exact ⟨hspell, hleft⟩

/-- There is one byte of output for each output mark. -/
theorem size_output_replay (c : Context) (ts : List Token) :
    (c.replay ts).output.size = c.output.size + ts.count (.literal .output) := by
  induction ts generalizing c with
  | nil => rfl
  | cons t ts ih =>
      rw [replay_cons, ih]
      by_cases h : t = .literal .output
      · subst h
        have hsize : (c.dispatch (.literal .output)).output.size = c.output.size + 1 :=
          Array.size_push ..
        rw [hsize, List.count_cons_self]
        omega
      · rw [output_dispatch_of_ne h, List.count_cons_of_ne h]

/-- The byte of an output mark is the current cell when it is dispatched. -/
theorem output_replay_at_mark (c : Context) (before behind : List Token) :
    (c.replay (before ++ .literal .output :: behind)).output[(c.replay before).output.size]?
      = some (c.replay before).tape.current := by
  rw [replay_append, replay_cons]
  have hemit : ((c.replay before).dispatch (.literal .output)).output.toList
      = (c.replay before).output.toList ++ [(c.replay before).tape.current] :=
    toList_output_emit _
  obtain ⟨rest, hrest⟩ :=
    ((c.replay before).dispatch (.literal .output)).prefix_output_replay behind
  rw [← Array.getElem?_toList, ← hrest, hemit]
  simp

end Context

/-! ## §6. Runs. -/

/-- **WORDS PAIR UP IN THE ORDER IN WHICH THEY ARE DISPATCHED.**  For every
program, every tape that can be had and all reins, wherever a run stands: the
word that waits is the last word dispatched so far, if their number is odd, and
none otherwise; the tape is a zeroed one on which the words have been carried
out in pairs; and each output mark has output the current cell of the tape that
the words before it have spelled.  Less than a pair of words spells nothing, and
each further pair does its operation on the tape that the pairs before it have
spelled: in whole numbers, the cell stopping at 0 and at 255 and the head at the
ends of the tape. -/
theorem words_pair_in_order (e : Setup) (memorySize : Nat) (c : Context)
    (hc : Context.fresh memorySize = .ok c) (k : Nat) :
    (e.history c k).length = (e.standing c k).2.context.steps ∧
    (e.standing c k).2.context.pending
      = (if (Token.words (e.history c k)).length % 2 = 0 then none
          else (Token.words (e.history c k)).getLast?) ∧
    (e.standing c k).2.context.tape
      = (Tape.zeroed (Context.tapeLength memorySize)).spell (Token.words (e.history c k)) ∧
    (e.standing c k).2.context.output.size = (e.history c k).count (.literal .output) ∧
    (∀ before behind, e.history c k = before ++ .literal .output :: behind →
      (e.standing c k).2.context.output[before.count (.literal .output)]?
        = some ((Tape.zeroed (Context.tapeLength memorySize)).spell
            (Token.words before)).current) ∧
    (∀ ws : List Word, ws.length ≤ 1 →
      (Tape.zeroed (Context.tapeLength memorySize)).spell ws
        = Tape.zeroed (Context.tapeLength memorySize)) ∧
    ∀ (ws : List Word) (first second : Word) (rest : List Word),
      ws.length % 2 = 0 → rest.length ≤ 1 →
      (Operation.ofPair first second).Saturates
        ((Tape.zeroed (Context.tapeLength memorySize)).spell ws)
        ((Tape.zeroed (Context.tapeLength memorySize)).spell (ws ++ first :: second :: rest)) := by
  have h0 := Context.steps_of_fresh hc
  have hstart := Context.eq_of_fresh hc
  -- A fresh context has a zeroed tape, no word that waits and no output.
  have hreplay : ∀ ts,
      (c.replay ts).tape = (Tape.zeroed (Context.tapeLength memorySize)).spell (Token.words ts) ∧
      (c.replay ts).pending = Word.unpaired (Token.words ts) := by
    intro ts
    have h := c.replay_pairs ts
    rw [hstart] at h ⊢
    exact h
  have hsize : ∀ ts, (c.replay ts).output.size = ts.count (.literal .output) := by
    intro ts
    have hempty : c.output.size = 0 := by rw [hstart]; rfl
    rw [c.size_output_replay, hempty, Nat.zero_add]
  have hhead : (Tape.zeroed (Context.tapeLength memorySize)).head
      < (Tape.zeroed (Context.tapeLength memorySize)).size := by
    rw [Tape.size_zeroed]
    show 0 < max 1 memorySize
    omega
  rw [Setup.context_standing h0]
  refine ⟨?_, (hreplay _).2, (hreplay _).1, hsize _, fun before behind hsplit => ?_,
    fun ws hshort => Tape.spell_of_short hshort _,
    fun ws first second rest heven hrest => Tape.saturates_spell hhead heven first second hrest⟩
  · rw [c.steps_replay, h0, Nat.zero_add]
  · rw [hsplit, ← (hreplay before).1, ← hsize before]
    exact c.output_replay_at_mark before behind

/-- A loop with one word in its body: every second time around it completes a
pair. -/
def oddLoop : Setup where
  program := .ofTokens [.literal (.word .upper), .literal (.word .upper), .literal .loopBegin,
    .literal (.word .upper), .literal .output, .literal .loopEnd]
  allowance := 0

theorem words_pair_in_order_oddLoop :
    Context.fresh 1 = .ok { tape := .zeroed 1 } ∧
    Token.words (oddLoop.history { tape := .zeroed 1 } 11)
      = [.upper, .upper, .upper, .upper, .upper] ∧
    (oddLoop.standing { tape := .zeroed 1 } 11).2.context.pending = some .upper ∧
    (oddLoop.standing { tape := .zeroed 1 } 11).2.context.tape = ⟨#[2], 0⟩ ∧
    (oddLoop.standing { tape := .zeroed 1 } 11).2.context.output.size = 3 ∧
    (((Tape.zeroed 1).spell [.lower, .lower, .upper]).cell 0).toNat = 0 ∧
    ((Tape.zeroed 1).spell [.lower, .upper]).head = 0 := by
  obtain ⟨-, hpending, htape, hsize, -, -, hpairs⟩ :=
    words_pair_in_order oddLoop 1 { tape := .zeroed 1 } rfl 11
  have hwords : Token.words (oddLoop.history { tape := .zeroed 1 } 11)
      = [.upper, .upper, .upper, .upper, .upper] := by decide
  rw [hwords] at hpending htape
  -- The one cell is zero, and there is no other to move to.
  have hzero := hpairs [] .lower .lower [.upper] rfl (by decide)
  have hend := hpairs [] .lower .upper [] rfl (by decide)
  exact ⟨rfl, hwords, hpending, htape, hsize.trans (by decide), hzero.current_eq, hend.head_eq⟩

end Prairie
