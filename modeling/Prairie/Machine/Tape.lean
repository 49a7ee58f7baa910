/-
  Prairie.Machine.Tape
  ────────────────────
  **THE TAPE.**

  A tape is a row of byte cells with one head on it.  Nothing wraps: a cell
  stops at 0 and at 255, and the head stops at both ends of the tape.  The
  four operations on a tape are spelled by pairs of words:

      Buffalo Buffalo   increment the cell under the head
      buffalo buffalo   decrement it
      buffalo Buffalo   advance the head
      Buffalo buffalo   retreat the head
-/
import Prairie.Source.Token

namespace Prairie

/-! ## §1. Operations and the pairs that spell them. -/

/-- What one pair of words does to a tape. -/
inductive Operation where
  /-- Add one to the cell under the head. -/
  | increment
  /-- Take one from the cell under the head. -/
  | decrement
  /-- Move the head one cell to the right. -/
  | advance
  /-- Move the head one cell to the left. -/
  | retreat
  deriving Repr, DecidableEq

/-- The operation that a pair of words spells. -/
def Operation.ofPair : Word → Word → Operation
  | .upper, .upper => .increment
  | .lower, .lower => .decrement
  | .lower, .upper => .advance
  | .upper, .lower => .retreat

/-- Read one word while another one may be waiting for its partner.  A word
that finds none waiting waits itself; a word that completes a pair gives the
operation of the pair, and none is left waiting. -/
@[inline] def Operation.accept (waiting : Option Word) (w : Word) : Option Word × Option Operation :=
  match waiting with
  | none => (some w, none)
  | some first => (none, some (.ofPair first w))

/-! ## §2. Saturating cells. -/

/-- One more, up to 255. -/
def saturatingSucc (cell : UInt8) : UInt8 := if cell = 255 then 255 else cell + 1

/-- One less, down to 0. -/
def saturatingPred (cell : UInt8) : UInt8 := if cell = 0 then 0 else cell - 1

theorem toNat_saturatingSucc (cell : UInt8) :
    (saturatingSucc cell).toNat = min (cell.toNat + 1) 255 := by
  have h := cell.toNat_lt
  unfold saturatingSucc
  split
  · next h => subst h; rfl
  · next hne =>
      have : cell.toNat ≠ 255 := fun h => hne (UInt8.toNat_inj.mp h)
      rw [UInt8.toNat_add]
      simp only [UInt8.toNat_ofNat]
      omega

theorem toNat_saturatingPred (cell : UInt8) :
    (saturatingPred cell).toNat = cell.toNat - 1 := by
  unfold saturatingPred
  split
  · next h => subst h; rfl
  · next hne =>
      have hpos : cell.toNat ≠ 0 := fun h => hne (UInt8.toNat_inj.mp h)
      have h1 : (1 : UInt8) ≤ cell := by
        rw [UInt8.le_iff_toNat_le]
        simp only [UInt8.toNat_ofNat]
        omega
      rw [UInt8.toNat_sub_of_le _ _ h1]
      rfl

/-! ## §3. Tapes. -/

/-- A row of cells and the position of the head. -/
structure Tape where
  cells : Array UInt8 := #[]
  head : Nat := 0
  deriving Repr, DecidableEq

namespace Tape

/-- The largest tape that a run may ask for. -/
def maxSize : Nat := 16777216

/-- A tape of `size` zeros with the head on the first cell. -/
def zeroed (size : Nat) : Tape := { cells := Array.replicate size 0 }

/-- The number of cells. -/
def size (t : Tape) : Nat := t.cells.size

/-- The value of a cell.  Off the tape there is nothing but zeros. -/
def cell (t : Tape) (index : Nat) : UInt8 := t.cells.getD index 0

/-- The value of the cell under the head. -/
def current (t : Tape) : UInt8 := t.cell t.head

/-- Carry out one operation. -/
def apply : Operation → Tape → Tape
  | .increment, ⟨cells, head⟩ => ⟨cells.modify head saturatingSucc, head⟩
  | .decrement, ⟨cells, head⟩ => ⟨cells.modify head saturatingPred, head⟩
  | .advance, ⟨cells, head⟩ => ⟨cells, min (head + 1) (cells.size - 1)⟩
  | .retreat, ⟨cells, head⟩ => ⟨cells, head - 1⟩

@[simp] theorem size_zeroed (n : Nat) : (zeroed n).size = n := by
  simp [zeroed, size]

/-- No operation changes the length of a tape. -/
@[simp] theorem size_apply (op : Operation) (t : Tape) : (t.apply op).size = t.size := by
  cases op <;> simp [apply, size]

/-- No operation moves the head off the tape. -/
theorem head_apply_lt {t : Tape} (h : t.head < t.size) (op : Operation) :
    (t.apply op).head < t.size := by
  cases op with
  | increment => exact h
  | decrement => exact h
  | advance =>
      show min (t.head + 1) (t.size - 1) < t.size
      omega
  | retreat =>
      show t.head - 1 < t.size
      omega

/-- Every non-zero cell with its index, in order of index. -/
def nonzero (t : Tape) : List (Nat × UInt8) := go t.size []
where
  /-- Walks down from index `i` and collects in front of `later`. -/
  go : Nat → List (Nat × UInt8) → List (Nat × UInt8)
    | 0, later => later
    | i + 1, later => go i (if t.cell i = 0 then later else (i, t.cell i) :: later)

end Tape

end Prairie
