/-
  Prairie.Text.Ranges
  ───────────────────
  **CHARACTER CLASSES AS RANGES.**

  A class of characters that a standard lists by code point is kept as a list
  of closed ranges, and a character belongs to it when some range holds its
  code point.
-/

namespace Prairie.Text

/-- A class of characters, as closed ranges of code points. -/
abbrev Ranges := List (Nat × Nat)

/-- Whether some range of the class holds the code point of `c`. -/
def Ranges.holds (ranges : Ranges) (c : Char) : Bool :=
  ranges.any fun (low, high) => low ≤ c.toNat && c.toNat ≤ high

end Prairie.Text
