/-
  Prairie.Source.Token
  ────────────────────
  **THE VOCABULARY OF THE LANGUAGE.**

  A Buffalo program is written with five literals, and everything else is
  commentary:

      Buffalo   buffalo     the two words, told apart by their first letter
      .                     the output mark
      (   )                 the brackets of a loop

  A token is one of these literals or a comment with its text.
-/
import Prairie.Text.Quoted

namespace Prairie

/-! ## §1. Literals. -/

/-- One of the two words; the case of the first letter tells them apart. -/
inductive Word where
  /-- The word with a capital first letter. -/
  | upper
  /-- The word in small letters. -/
  | lower
  deriving Repr, DecidableEq

/-- A lexical unit with a fixed spelling. -/
inductive Literal where
  /-- One of the two words. -/
  | word (w : Word)
  /-- The mark that sends the current cell to the output. -/
  | output
  /-- The bracket that opens a loop. -/
  | loopBegin
  /-- The bracket that closes a loop. -/
  | loopEnd
  deriving Repr, DecidableEq

namespace Literal

/-- Every literal, in the order in which a source is tested for them. -/
def all : List Literal := [.word .upper, .word .lower, .output, .loopBegin, .loopEnd]

theorem mem_all (l : Literal) : l ∈ all := by
  rcases l with (_ | _) | _ | _ | _ <;> decide

/-- How the literal is written in a source. -/
def spelling : Literal → String
  | word .upper => "Buffalo"
  | word .lower => "buffalo"
  | output => "."
  | loopBegin => "("
  | loopEnd => ")"

/-- The name of the literal in listings and tables. -/
def name : Literal → String
  | word .upper => "WordUpper"
  | word .lower => "WordLower"
  | output => "Output"
  | loopBegin => "LoopBegin"
  | loopEnd => "LoopEnd"

theorem name_inj {l l' : Literal} (h : l.name = l'.name) : l = l' := by
  have key : ∀ l ∈ all, ∀ l' ∈ all, l.name = l'.name → l = l' := by decide
  exact key l l.mem_all l' l'.mem_all h

end Literal

/-! ## §2. Tokens. -/

/-- A lexical unit of a program. -/
inductive Token where
  /-- Text that belongs to no literal. -/
  | comment (text : String)
  /-- An occurrence of a literal. -/
  | literal (l : Literal)
  deriving Repr, DecidableEq

namespace Token

/-- The source text that the token stands for. -/
def text : Token → String
  | comment text => text
  | literal l => l.spelling

/-- The literal that the token is, if it is no comment. -/
def literal? : Token → Option Literal
  | comment _ => none
  | literal l => some l

/-- The name of the kind of token. -/
def kindName : Token → String
  | comment _ => "Comment"
  | literal l => l.name

theorem kindName_ne (text : String) (l : Literal) :
    (comment text).kindName ≠ (literal l).kindName := by
  have key : ∀ l ∈ Literal.all, "Comment" ≠ l.name := by decide
  exact key l l.mem_all

/-- Kinds are spelled with letters. -/
theorem isAlpha_of_mem_kindName {t : Token} {c : Char} (hc : c ∈ t.kindName.toList) :
    c.isAlpha = true := by
  cases t with
  | comment text =>
      have key : "Comment".toList.all Char.isAlpha = true := by decide
      exact List.all_eq_true.mp key c hc
  | literal l =>
      have key : ∀ l ∈ Literal.all, l.name.toList.all Char.isAlpha = true := by decide
      exact List.all_eq_true.mp (key l l.mem_all) c hc

/-- The name of its kind tells which literal a token is, if it is one. -/
theorem literal?_eq_of_kindName {t u : Token} (h : t.kindName = u.kindName) :
    t.literal? = u.literal? := by
  cases t with
  | comment text =>
      cases u with
      | comment text' => rfl
      | literal l => exact absurd h (kindName_ne text l)
  | literal l =>
      cases u with
      | comment text => exact absurd h.symm (kindName_ne text l)
      | literal l' => exact congrArg some (Literal.name_inj h)

/-- The token as a listing shows it: its kind and, for a comment, the quoted
text. -/
def describe : Token → String
  | comment text => "Comment " ++ Text.quote text
  | literal l => l.name

/-- Whether the token does something when it is run. -/
def isInstruction (t : Token) : Bool := t.literal?.isSome

end Token

end Prairie
