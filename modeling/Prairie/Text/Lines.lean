/-
  Prairie.Text.Lines
  ──────────────────
  **LINES.**

  A text is cut after every line feed.  Each line keeps its line feed, the
  last one need not have any, and an empty text has no line:

      (lines cs).flatten = cs
-/

namespace Prairie.Text

/-- The lines of a text, each with the line feed that ends it. -/
def lines (cs : List Char) : List (List Char) := go [] cs
where
  /-- Here `line` holds the line read so far, newest character first. -/
  go (line : List Char) : List Char → List (List Char)
    | [] => if line.isEmpty then [] else [line.reverse]
    | c :: cs => if c = '\n' then (c :: line).reverse :: go [] cs else go (c :: line) cs

theorem flatten_lines_go (line cs : List Char) :
    (lines.go line cs).flatten = line.reverse ++ cs := by
  induction cs generalizing line with
  | nil => cases line <;> simp [lines.go]
  | cons c cs ih => by_cases h : c = '\n' <;> simp [lines.go, h, ih]

/-- Cutting into lines loses nothing. -/
@[simp] theorem flatten_lines (cs : List Char) : (lines cs).flatten = cs := by
  simp [lines, flatten_lines_go]

end Prairie.Text
