/-
  Prairie.Text.Blank
  ──────────────────
  **BLANKS AND TRIMMING.**

  A character is blank when it has the Unicode property White_Space: the
  ASCII controls 9 to 13 and the space, next line, the no-break spaces, the
  typographic spaces, the line and paragraph separators and the ideographic
  space.  The zero-width space and the byte order mark are NOT blank.

  Trimming removes blanks at the ends and nowhere else:

      trim = trimEnd ∘ trimStart
-/
import Prairie.Text.Ranges

namespace Prairie.Text

/-! ## §1. The class of blanks. -/

/-- The code points with the property White_Space, as closed ranges. -/
def blankRanges : Ranges :=
  [(0x09, 0x0d), (0x20, 0x20), (0x85, 0x85), (0xa0, 0xa0), (0x1680, 0x1680),
   (0x2000, 0x200a), (0x2028, 0x2029), (0x202f, 0x202f), (0x205f, 0x205f),
   (0x3000, 0x3000)]

/-- A blank is a character with the property White_Space. -/
def isBlank (c : Char) : Bool :=
  blankRanges.holds c

/-- The ASCII white space of the core library is blank. -/
theorem isBlank_of_isWhitespace {c : Char} (h : c.isWhitespace = true) :
    isBlank c = true := by
  simp only [Char.isWhitespace, Bool.or_eq_true, decide_eq_true_eq] at h
  rcases h with ((rfl | rfl) | rfl) | rfl <;> decide

/-! ## §2. Trimming a list of characters. -/

/-- Drop the blanks at the front. -/
def trimStart (cs : List Char) : List Char := cs.dropWhile isBlank

/-- Drop the blanks at the back. -/
def trimEnd (cs : List Char) : List Char := (cs.reverse.dropWhile isBlank).reverse

/-- Drop the blanks at both ends. -/
def trim (cs : List Char) : List Char := trimEnd (trimStart cs)

/-! ## §3. Trimming a string. -/

/-- A string without the blanks at its ends. -/
def trimmed (s : String) : String := String.ofList (trim s.toList)

/-- A string without the blanks at its back. -/
def trimmedEnd (s : String) : String := String.ofList (trimEnd s.toList)

@[simp] theorem toList_trimmed (s : String) : (trimmed s).toList = trim s.toList := by
  simp [trimmed]

@[simp] theorem toList_trimmedEnd (s : String) :
    (trimmedEnd s).toList = trimEnd s.toList := by
  simp [trimmedEnd]

end Prairie.Text
