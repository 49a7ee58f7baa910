/-
  Prairie.Source.Scanner
  ──────────────────────
  **READING A SOURCE.**

  The scanner is fed one character at a time and holds back what it has read
  since the last literal.  As soon as the held text ENDS in a literal, the
  text before it (if it is more than blanks) becomes a comment, the literal
  becomes a token, and the scanner starts afresh:

      push : Scanner → Nat → Char → Scanner

  Text that is still held when the source ends belongs to no token.
-/
import Prairie.Source.Program
import Prairie.Text.Blank
import Prairie.Text.Offset

namespace Prairie

/-! ## §1. The state of a scan. -/

/-- What a scanner knows about the source read so far. -/
structure Scanner where
  /-- The characters since the last literal, newest first. -/
  held : List Char := []
  /-- The byte offset of the oldest held character. -/
  heldAt : Nat := 0
  /-- The lexemes found so far. -/
  found : Array Lexeme := #[]
  deriving Repr, DecidableEq

namespace Scanner

/-- The text since the last literal, as it stands in the source. -/
def heldText (s : Scanner) : String := String.ofList s.held.reverse

/-- The literal that the held text, newest character first, ends in. -/
def ending? (held : List Char) : Option Literal :=
  Literal.all.find? fun l => l.spelling.toList.reverse.isPrefixOf held

/-- The comment that a gap between two literals makes, if it is more than
blanks; `start` is the byte offset of the gap. -/
def commentOf? (gap : List Char) (start : Nat) : Option Lexeme :=
  let text := Text.trim gap
  if text.isEmpty then none
  else
    let start := start + Text.byteWidth (gap.takeWhile Text.isBlank)
    some ⟨.comment (String.ofList text), some ⟨start, start + Text.byteWidth text⟩⟩

/-- The lexeme of a literal at byte offset `start`. -/
def lexemeOf (l : Literal) (start : Nat) : Lexeme :=
  ⟨.literal l, some ⟨start, start + l.spelling.utf8ByteSize⟩⟩

/-! ## §2. Feeding characters. -/

/-- Feed the scanner the character `c`, which stands at byte offset `offset`
of the source. -/
def push (s : Scanner) (offset : Nat) (c : Char) : Scanner :=
  let heldAt := if s.held.isEmpty then offset else s.heldAt
  let held := c :: s.held
  match ending? held with
  | none => { s with held, heldAt }
  | some l =>
      let gap := (held.drop l.spelling.length).reverse
      let found := match commentOf? gap heldAt with
        | some comment => s.found.push comment
        | none => s.found
      { held := [], heldAt, found := found.push (lexemeOf l (heldAt + Text.byteWidth gap)) }

/-- Feed the scanner a run of characters that starts at byte offset `offset`. -/
def feed (s : Scanner) (offset : Nat) : List Char → Scanner
  | [] => s
  | c :: cs => feed (s.push offset c) (offset + c.utf8Size) cs

/-- The program found so far; held text is not part of it. -/
def program (s : Scanner) : Program := ⟨s.found⟩

end Scanner

/-! ## §3. Whole sources. -/

/-- The program that a source spells.  Every text is the source of some
program. -/
def Program.ofSource (source : String) : Program :=
  (Scanner.feed {} 0 source.toList).program

end Prairie
