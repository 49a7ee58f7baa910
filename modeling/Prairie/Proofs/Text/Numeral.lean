/-
  Prairie.Proofs.Text.Numeral
  ───────────────────────────
  **WHAT A NUMERAL IS WORTH.**

  The reader of numerals goes from the first digit to the last and keeps a
  running value.  What a numeral is worth does not mention a reader: a digit
  counts for as many powers of ten as there are digits behind it,

      decimal [d, e, f]  =  d · 10²  +  e · 10¹  +  f · 10⁰

  and a text is a numeral of that worth if it is made of digits, at least
  one, behind a plus sign or none, and the worth fits in 64 bits.
-/
import Mathlib.Algebra.Group.Nat.Defs
import Prairie.Text.Numeral

namespace Prairie.Text

variable {cs ds : List Char} {n : Nat}

/-! ## §1. The worth of digits. -/

/-- What a decimal digit counts for. -/
def digitWorth (d : Char) : Nat := d.toNat - '0'.toNat

/-- What a list of decimal digits is worth, most significant first. -/
def decimal : List Char → Nat
  | [] => 0
  | d :: ds => digitWorth d * 10 ^ ds.length + decimal ds

/-- The value read so far is moved up by every digit that follows. -/
theorem foldl_digits (ds : List Char) (value : Nat) :
    ds.foldl (fun value c => value * 10 + (c.toNat - '0'.toNat)) value
      = value * 10 ^ ds.length + decimal ds := by
  induction ds generalizing value with
  | nil =>
      show value = value * 10 ^ 0 + 0
      omega
  | cons d ds ih =>
      have hmove : (value * 10 + digitWorth d) * 10 ^ ds.length
          = value * 10 ^ (ds.length + 1) + digitWorth d * 10 ^ ds.length := by
        rw [Nat.add_mul, Nat.mul_assoc, Nat.pow_succ, Nat.mul_comm 10]
      rw [List.foldl_cons, ih]
      show (value * 10 + digitWorth d) * 10 ^ ds.length + decimal ds
        = value * 10 ^ (ds.length + 1) + (digitWorth d * 10 ^ ds.length + decimal ds)
      rw [hmove, Nat.add_assoc]

/-! ## §2. Numerals. -/

/-- One or more decimal digits, worth `n`, which fits in 64 bits. -/
def Digits (ds : List Char) (n : Nat) : Prop :=
  ds ≠ [] ∧ (∀ d ∈ ds, '0' ≤ d ∧ d ≤ '9') ∧ decimal ds = n ∧ n < 2 ^ 64

/-- A numeral worth `n`: digits, behind a plus sign or none. -/
def Numeral (cs : List Char) (n : Nat) : Prop :=
  Digits cs n ∨ ∃ ds, cs = '+' :: ds ∧ Digits ds n

theorem digitsValue?_filter_eq_some_iff :
    (digitsValue? ds).filter (· < numeralBound) = some n ↔ Digits ds n := by
  have hdigit : ∀ d : Char, d.isDigit = true ↔ '0' ≤ d ∧ d ≤ '9' := by
    intro d
    rw [Char.isDigit, Bool.and_eq_true, decide_eq_true_eq, decide_eq_true_eq]
    rfl
  have hvalue : ds.foldl (fun value c => value * 10 + (c.toNat - '0'.toNat)) 0 = decimal ds := by
    rw [foldl_digits, Nat.zero_mul, Nat.zero_add]
  rw [Option.filter_eq_some_iff, digitsValue?, hvalue]
  constructor
  · rintro ⟨hread, hbound⟩
    split at hread
    next => cases hread
    next hds =>
        cases hread
        simp only [Bool.or_eq_true, Bool.not_eq_true', not_or, List.isEmpty_iff,
          Bool.not_eq_false, List.all_eq_true, hdigit] at hds
        exact ⟨hds.1, hds.2, rfl, of_decide_eq_true hbound⟩
  · rintro ⟨hne, hall, rfl, hbound⟩
    have hds : ¬ (ds.isEmpty || !ds.all Char.isDigit) = true := by
      simp only [Bool.or_eq_true, Bool.not_eq_true', not_or, List.isEmpty_iff,
        Bool.not_eq_false, List.all_eq_true, hdigit]
      exact ⟨hne, hall⟩
    rw [if_neg hds]
    exact ⟨rfl, decide_eq_true hbound⟩

/-- A text that begins with a plus sign is no list of digits. -/
theorem not_digits_plus : ¬ Digits ('+' :: ds) n := by
  rintro ⟨-, hall, -⟩
  exact absurd (hall '+' List.mem_cons_self).1 (by decide)

/-- **The reader reads numerals, and nothing else, and reads what they are
worth.** -/
theorem numeral?_eq_some_iff : numeral? cs = some n ↔ Numeral cs n := by
  unfold numeral?
  dsimp only
  rw [digitsValue?_filter_eq_some_iff]
  split
  next rest =>
      constructor
      · intro h
        exact .inr ⟨rest, rfl, h⟩
      · rintro (h | ⟨ds, hds, h⟩)
        · exact absurd h not_digits_plus
        · cases hds
          exact h
  next hplus =>
      constructor
      · intro h
        exact .inl h
      · rintro (h | ⟨ds, rfl, -⟩)
        · exact h
        · exact absurd rfl (hplus ds)

end Prairie.Text
