/-
  Prairie.Text.Column
  ───────────────────
  **COLUMNS.**

  Tables are written in columns of a least width.  A shorter cell is filled
  with spaces, on the right (`flushLeft`) or on the left (`flushRight`); a
  longer cell is written in full.
-/

namespace Prairie.Text

/-- A text of `n` spaces. -/
def spaces (n : Nat) : String := String.ofList (List.replicate n ' ')

/-- The cell at the left of a column of least width `width`. -/
def flushLeft (width : Nat) (cell : String) : String := cell ++ spaces (width - cell.length)

/-- The cell at the right of a column of least width `width`. -/
def flushRight (width : Nat) (cell : String) : String := spaces (width - cell.length) ++ cell

end Prairie.Text
