/-
  Prairie.CommandLine.Listing
  ───────────────────────────
  **TOKEN LISTINGS.**

  A listing has one line per token: the index, the span of bytes in the
  source, and what the token is.  A comment is quoted, so that it cannot
  break its line.
-/
import Prairie.Source.Program
import Prairie.Text.Column

namespace Prairie.CommandLine.Listing

/-- The line of one lexeme. -/
def line (index : Nat) (x : Lexeme) : String :=
  let index := Text.flushRight 4 (toString index)
  match x.span with
  | some span =>
      let start := Text.flushRight 5 (toString span.start)
      let stop := Text.flushLeft 5 (toString span.stop)
      s!"{index}  {start}..{stop}  {x.token.describe}\n"
  | none => s!"{index}  {x.token.describe}\n"

/-- The listing of a program. -/
def render (p : Program) : String :=
  String.join (p.lexemes.toList.zipIdx.map fun (x, index) => line index x)

end Prairie.CommandLine.Listing
