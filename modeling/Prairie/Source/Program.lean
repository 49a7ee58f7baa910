/-
  Prairie.Source.Program
  ──────────────────────
  **PROGRAMS.**

  A program is a sequence of lexemes in the order in which they are run.  A
  lexeme is a token and, when the program was read from a source, the span of
  bytes that the token covers there.  A program put together from bare tokens
  has no spans.
-/
import Prairie.Source.Token

namespace Prairie

/-! ## §1. Lexemes. -/

/-- A range of byte offsets in a source, from `start` up to but not including
`stop`. -/
structure Span where
  start : Nat
  stop : Nat
  deriving Repr, DecidableEq

/-- A token and where it stands in its source, if it came from one. -/
structure Lexeme where
  token : Token
  span : Option Span := none
  deriving Repr, DecidableEq

/-! ## §2. Programs. -/

/-- A sequence of lexemes. -/
structure Program where
  lexemes : Array Lexeme := #[]
  deriving Repr, DecidableEq

namespace Program

/-- The program made of bare tokens. -/
def ofTokens (tokens : List Token) : Program :=
  ⟨(tokens.map fun t => { token := t }).toArray⟩

/-- The tokens of the program, in order. -/
def tokens (p : Program) : List Token := p.lexemes.toList.map Lexeme.token

/-- The number of tokens. -/
def size (p : Program) : Nat := p.lexemes.size

/-- Whether the program has no token at all. -/
def isEmpty (p : Program) : Bool := p.lexemes.isEmpty

/-- The token at an index. -/
@[inline] def token? (p : Program) (index : Nat) : Option Token := p.lexemes[index]?.map Lexeme.token

/-- The span of the token at an index, where it is known. -/
def span? (p : Program) (index : Nat) : Option Span := p.lexemes[index]?.bind Lexeme.span

/-- Whether some token of the program is an instruction. -/
def hasInstructions (p : Program) : Bool := p.tokens.any Token.isInstruction

/-- The texts of all tokens, one after the other. -/
def render (p : Program) : String := String.join (p.tokens.map Token.text)

@[simp] theorem tokens_ofTokens (ts : List Token) : (ofTokens ts).tokens = ts := by
  simp [ofTokens, tokens, Function.comp_def]

theorem token?_eq (p : Program) (index : Nat) : p.token? index = p.tokens[index]? := by
  simp [token?, tokens]

theorem length_tokens (p : Program) : p.tokens.length = p.size := by
  simp [tokens, size]

end Program

end Prairie
