/-
  Prairie.Proofs.Source.Joining
  ─────────────────────────────
  **A MARK OF NO LITERAL KEEPS TEXTS APART.**

  Put a character that stands in no literal between two texts.  Half a word at
  the end of the first one stays half a word, whatever the second one begins
  with, so no instruction comes up and none is lost:

      instructions (a ++ mark :: b)  =  instructions a ++ instructions b

  The comments are another matter: what is left of `a` behind its last literal,
  the mark and what precedes the first literal of `b` make ONE gap.
-/
import Prairie.Proofs.Source.Outskirts

namespace Prairie

open Scanner (scan)

variable {a b cs g rest : List Char} {mark : Char} {l : Literal}

/-! ## §1. The instructions of a text. -/

/-- The tokens that do something, in order. -/
def Program.instructions (p : Program) : List Token := p.tokens.filter Token.isInstruction

namespace Scanner

/-- The instructions that a text spells. -/
def instructions (cs : List Char) : List Token :=
  ((scan 0 cs).map Lexeme.token).filter Token.isInstruction

theorem instructions_free (hf : Free cs) : instructions cs = [] := by
  rw [instructions, scan_free hf]
  rfl

/-- The comment of a gap is no instruction. -/
theorem filter_isInstruction_gapTokens (g : List Char) :
    (gapTokens g).filter Token.isInstruction = [] := by
  unfold gapTokens
  split
  · rfl
  · rfl

theorem instructions_piece (hg : Free g) :
    instructions (g ++ l.letters ++ rest) = .literal l :: instructions rest := by
  have hl : (Token.literal l).isInstruction = true := rfl
  unfold instructions
  rw [tokens_scan_piece hg, List.filter_append, filter_isInstruction_gapTokens, List.nil_append,
    List.filter_cons_of_pos hl, tokens_scan_shift rest _ 0]

/-! ## §2. Texts with a mark between them. -/

/-- **A mark of no literal keeps the instructions of two texts apart.** -/
theorem instructions_append_mark (hmark : ∀ l : Literal, mark ∉ l.letters) (a b : List Char) :
    instructions (a ++ mark :: b) = instructions a ++ instructions b := by
  induction a using piece_induction with
  | free a ha =>
      rw [instructions_free ha, List.nil_append]
      rcases free_or_piece b with hb | ⟨g, l, rest, hg, rfl⟩
      · rw [instructions_free (ha.join hmark hb), instructions_free hb]
      · -- All of `a` and the mark go into the first gap of `b`.
        have hassoc : a ++ mark :: (g ++ l.letters ++ rest)
            = a ++ mark :: g ++ l.letters ++ rest := by
          simp only [List.append_assoc, List.cons_append]
        rw [hassoc, instructions_piece (ha.join hmark hg), instructions_piece hg]
  | piece g l rest hg ih =>
      rw [List.append_assoc _ rest, instructions_piece hg, instructions_piece hg, ih,
        List.cons_append]

/-- A mark at the end adds no instruction. -/
theorem instructions_concat_mark (hmark : ∀ l : Literal, mark ∉ l.letters) (a : List Char) :
    instructions (a ++ [mark]) = instructions a := by
  rw [instructions_append_mark hmark, instructions_free free_nil, List.append_nil]

end Scanner

namespace Program

theorem instructions_ofSource (source : String) :
    (ofSource source).instructions = Scanner.instructions source.toList := rfl

/-! ## §3. Sources with a mark between them. -/

theorem instructions_append_mark (hmark : ∀ l : Literal, mark ∉ l.letters) (s t : String) :
    (ofSource (s ++ String.singleton mark ++ t)).instructions
      = (ofSource s).instructions ++ (ofSource t).instructions := by
  rw [instructions_ofSource, String.toList_append, String.toList_append, String.toList_singleton,
    List.append_assoc, List.singleton_append, Scanner.instructions_append_mark hmark]
  rfl

/-- **Parts joined by a mark of no literal** spell the instructions of each part,
one after the other. -/
theorem instructions_intercalate (hmark : ∀ l : Literal, mark ∉ l.letters)
    (parts : List String) :
    (ofSource ((String.singleton mark).intercalate parts)).instructions
      = parts.flatMap fun part => (ofSource part).instructions := by
  induction parts with
  | nil => rfl
  | cons part parts ih =>
      cases parts with
      | nil => rw [String.intercalate_singleton, List.flatMap_singleton]
      | cons next parts =>
          rw [String.intercalate_cons_cons, instructions_append_mark hmark, ih]
          rfl

end Program

end Prairie
