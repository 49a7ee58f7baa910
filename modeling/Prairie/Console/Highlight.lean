/-
  Prairie.Console.Highlight
  ─────────────────────────
  **HIGHLIGHTING.**

  A line in the editor is shown in segments.  Every token is a segment in the
  style of its kind, and the text between tokens and behind the last one is
  shown as pending.  The segments together are the line.
-/
import Prairie.Source.Scanner

namespace Prairie.Console

/-! ## §1. Styles. -/

/-- What a segment of a line is. -/
inductive Role where
  | wordUpper
  | wordLower
  | output
  | bracket
  | comment
  /-- Text that belongs to no token. -/
  | pending
  deriving Repr, DecidableEq

/-- A way of showing text on a terminal. -/
structure Style where
  bold : Bool := false
  italic : Bool := false
  red : Nat
  green : Nat
  blue : Nat
  deriving Repr, DecidableEq

/-- The role of a token. -/
def Role.ofToken : Token → Role
  | .comment _ => comment
  | .literal (.word .upper) => wordUpper
  | .literal (.word .lower) => wordLower
  | .literal .output => output
  | .literal .loopBegin | .literal .loopEnd => bracket

/-- The style of a role. -/
def Role.style : Role → Style
  | wordUpper => { bold := true, red := 166, green := 227, blue := 161 }
  | wordLower => { bold := true, red := 243, green := 139, blue := 168 }
  | output => { bold := true, red := 249, green := 226, blue := 175 }
  | bracket => { bold := true, red := 203, green := 166, blue := 247 }
  | comment => { italic := true, red := 127, green := 132, blue := 156 }
  | pending => { red := 108, green := 112, blue := 134 }

/-- The codes that switch a terminal to a style. -/
def Style.codes (s : Style) : String :=
  (if s.bold then "1;" else "") ++ (if s.italic then "3;" else "") ++
    s!"38;2;{s.red};{s.green};{s.blue}"

/-! ## §2. Segments. -/

/-- A piece of a line and its role. -/
structure Segment where
  role : Role
  text : String
  deriving Repr, DecidableEq

/-- The pending segment of a text, if there is any text. -/
def Segment.pending (text : List Char) : List Segment :=
  if text.isEmpty then [] else [⟨.pending, String.ofList text⟩]

namespace Highlight

/-- Cut the rest of a line, which begins at byte offset `cursor`, along the
spans of lexemes. -/
def cut (cursor : Nat) (rest : List Char) : List Lexeme → List Segment
  | [] => Segment.pending rest
  | ⟨_, none⟩ :: lexemes => cut cursor rest lexemes
  | ⟨token, some span⟩ :: lexemes =>
      let (gap, rest) := Text.splitAtByte (span.start - cursor) rest
      let (text, rest) := Text.splitAtByte (span.stop - span.start) rest
      Segment.pending gap ++
        ⟨Role.ofToken token, String.ofList text⟩ :: cut span.stop rest lexemes

/-- The segments of a line. -/
def segments (line : String) : List Segment :=
  cut 0 line.toList (Program.ofSource line).lexemes.toList

/-- A segment with the codes that style it on a terminal. -/
def paint (s : Segment) : String :=
  "\x1b[" ++ s.role.style.codes ++ "m" ++ s.text ++ "\x1b[0m"

/-- A whole line, styled for a terminal. -/
def render (line : String) : String := String.join ((segments line).map paint)

end Highlight

end Prairie.Console
