/-
  Prairie.Report.Excerpt
  ──────────────────────
  **EXCERPTS WITH A CARET.**

  A report about a place in a text shows a short piece of the text on one
  line and a caret under the place on the next.  The piece reaches 32
  characters to either side, as far as there is text, and characters that
  would break or shift the line are shown as spaces.  Places are counted in
  characters here, so no character is ever cut.
-/
import Prairie.Text.Column
import Prairie.Text.Offset

namespace Prairie

/-- A piece of text on one line and the column its caret stands at. -/
structure Excerpt where
  line : List Char
  caret : Nat
  deriving Repr, DecidableEq

namespace Excerpt

/-- How many characters are shown on either side of the place. -/
def reach : Nat := 32

/-- Line feeds, carriage returns and tabs are shown as spaces. -/
def flatten (c : Char) : Char := if c = '\n' || c = '\r' || c = '\t' then ' ' else c

/-- The excerpt around the character with index `place`. -/
def around (place : Nat) (shown : List Char) : Excerpt where
  line := ((shown.drop (place - reach)).take (min place reach + reach + 1)).map flatten
  caret := min place reach

/-- The excerpt around a byte offset.  An offset that is past the end of the
text or inside a character counts as the start of the text. -/
def atOffset (offset : Nat) (shown : String) : Excerpt :=
  around ((Text.charsBefore? offset shown.toList).getD 0) shown.toList

/-- The two lines of an excerpt. -/
def render (x : Excerpt) : String :=
  "  " ++ String.ofList x.line ++ "\n  " ++ Text.spaces x.caret ++ "^\n"

/-- An excerpt is never longer than the reach to both sides and the place. -/
theorem length_line_around_le (place : Nat) (shown : List Char) :
    (around place shown).line.length ≤ 65 := by
  simp only [around, reach, List.length_map, List.length_take]
  omega

end Excerpt

end Prairie
