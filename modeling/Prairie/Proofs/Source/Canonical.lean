/-
  Prairie.Proofs.Source.Canonical
  ───────────────────────────────
  **WRITING A PROGRAM OUT AND READING IT BACK.**

  A list of tokens is CANONICAL when each comment in it is what the scanner
  could have made of a gap: not empty, trimmed, free of literals, and with a
  literal right behind it.

      tokens of (render ts) = ts   ↔   ts is canonical
      the tokens of every source are canonical

  Both directions follow the pieces.  A canonical list is a row of tokens
  `gapTokens g ++ [l]` with a trimmed gap `g`, and such a piece is written
  `g ++ l`, which is what the scanner reads as that piece.
-/
import Prairie.Proofs.Source.Scan

namespace Prairie

open Scanner (gapTokens scan)

variable {g : List Char} {l : Literal} {t : Token} {ts : List Token}

/-! ## §1. Canonical lists of tokens. -/

/-- Each comment is non-empty, trimmed and free of literals, and a literal
follows it. -/
def Canonical (ts : List Token) : Prop :=
  ∀ i text, ts[i]? = some (.comment text) →
    text ≠ "" ∧ Text.trimmed text = text ∧ Free text.toList ∧
      ∃ l, ts[i + 1]? = some (.literal l)

theorem canonical_nil : Canonical [] := by
  intro i text h
  simp at h

theorem Canonical.tail (h : Canonical (t :: ts)) : Canonical ts := by
  intro i text hi
  have hnext := h (i + 1) text (by rw [List.getElem?_cons_succ, hi])
  rw [List.getElem?_cons_succ] at hnext
  exact hnext

theorem Canonical.literal_cons (h : Canonical ts) : Canonical (.literal l :: ts) := by
  intro i text hi
  cases i with
  | zero => simp at hi
  | succ i =>
      rw [List.getElem?_cons_succ] at hi
      rw [List.getElem?_cons_succ]
      exact h i text hi

theorem Canonical.comment_cons {text : String} (hne : text ≠ "")
    (htrim : Text.trimmed text = text) (hfree : Free text.toList)
    (h : Canonical (.literal l :: ts)) : Canonical (.comment text :: .literal l :: ts) := by
  intro i text' hi
  cases i with
  | zero =>
      obtain rfl : text = text' := by simpa using hi
      exact ⟨hne, htrim, hfree, l, rfl⟩
  | succ i =>
      rw [List.getElem?_cons_succ] at hi
      rw [List.getElem?_cons_succ]
      exact h i text' hi

/-! ## §2. Canonical lists are rows of pieces. -/

/-- The texts of tokens, one after the other. -/
def spelled (ts : List Token) : List Char := ts.flatMap fun t => t.text.toList

theorem toList_render (p : Program) : p.render.toList = spelled p.tokens := by
  rw [Program.render, String.toList_join, List.flatMap_map, spelled]

theorem spelled_piece : spelled (gapTokens g ++ .literal l :: ts)
    = Text.trim g ++ l.letters ++ spelled ts := by
  have hgap : (gapTokens g).flatMap (fun t => t.text.toList) = Text.trim g := by
    unfold gapTokens
    by_cases hblank : g.all Text.isBlank = true
    · rw [if_pos hblank, Text.trim_eq_nil_iff.mpr hblank, List.flatMap_nil]
    · rw [if_neg hblank, List.flatMap_singleton, Token.text, String.toList_ofList]
  rw [spelled, List.flatMap_append, hgap, List.flatMap_cons, List.append_assoc]
  rfl

/-- What the scanner makes of a free gap and a literal is canonical. -/
theorem Canonical.piece (h : Canonical ts) (hg : Free g) :
    Canonical (gapTokens g ++ .literal l :: ts) := by
  unfold gapTokens
  by_cases hblank : g.all Text.isBlank = true
  · rw [if_pos hblank]
    exact h.literal_cons
  · rw [if_neg hblank]
    refine Canonical.comment_cons ?_ ?_ ?_ h.literal_cons
    · intro hempty
      refine hblank (Text.trim_eq_nil_iff.mp ?_)
      rw [← String.toList_ofList (l := Text.trim g), hempty, String.toList_empty]
    · rw [Text.trimmed, String.toList_ofList, Text.trim_trim]
    · rw [String.toList_ofList]
      exact hg.of_infix (Text.trim_infix g)

/-- A canonical list is empty or begins with a piece whose gap is trimmed. -/
theorem Canonical.nil_or_piece (h : Canonical ts) :
    ts = [] ∨ ∃ g l ts', Free g ∧ Text.trim g = g ∧ Canonical ts' ∧
      ts = gapTokens g ++ .literal l :: ts' := by
  cases ts with
  | nil => exact .inl rfl
  | cons t ts =>
      right
      cases t with
      | literal l => exact ⟨[], l, ts, free_nil, rfl, h.tail, rfl⟩
      | comment text =>
          obtain ⟨hne, htrim, hfree, l, hnext⟩ := h 0 text rfl
          have hgap : Text.trim text.toList = text.toList := by
            rw [← Text.toList_trimmed, htrim]
          have hblank : ¬ text.toList.all Text.isBlank = true := by
            intro hb
            rw [← Text.trim_eq_nil_iff, hgap, String.toList_eq_nil_iff] at hb
            exact hne hb
          -- The token behind the comment is the literal of the piece.
          cases ts with
          | nil => simp at hnext
          | cons u ts =>
              obtain rfl : u = .literal l := by simpa using hnext
              refine ⟨text.toList, l, ts, hfree, hgap, h.tail.tail, ?_⟩
              rw [gapTokens, if_neg hblank, hgap, String.ofList_toList]
              rfl

/-! ## §3. Reading back. -/

theorem canonical_tokens_scan (cs : List Char) (offset : Nat) :
    Canonical ((scan offset cs).map Lexeme.token) := by
  induction cs using piece_induction generalizing offset with
  | free cs hf =>
      rw [Scanner.scan_free hf]
      exact canonical_nil
  | piece g l rest hg ih =>
      rw [Scanner.tokens_scan_piece hg]
      exact (ih _).piece hg

/-- The scanner reads a canonical list back as it was written. -/
theorem Canonical.tokens_scan_spelled (h : Canonical ts) (offset : Nat) :
    (scan offset (spelled ts)).map Lexeme.token = ts := by
  induction hn : ts.length using Nat.strongRecOn generalizing ts offset with
  | ind n ih =>
      rcases h.nil_or_piece with rfl | ⟨g, l, ts', hg, htrim, h', rfl⟩
      · rw [spelled, List.flatMap_nil, Scanner.scan_free free_nil]
        rfl
      · have hlt : ts'.length < n := by
          rw [← hn, List.length_append, List.length_cons]
          omega
        rw [spelled_piece, htrim, Scanner.tokens_scan_piece hg, ih _ hlt h' _ rfl]

/-- A canonical list without an instruction is empty. -/
theorem Canonical.any_isInstruction (h : Canonical ts) :
    ts.any Token.isInstruction = !ts.isEmpty := by
  rcases h.nil_or_piece with rfl | ⟨g, l, ts', -, -, -, rfl⟩
  · rfl
  · rw [List.any_append, List.any_cons]
    simp [Token.isInstruction, Token.literal?]

theorem canonical_ofSource (source : String) : Canonical (Program.ofSource source).tokens := by
  rw [Program.tokens, Program.lexemes_ofSource]
  exact canonical_tokens_scan source.toList 0

theorem Canonical.tokens_ofSource_render {p : Program} (h : Canonical p.tokens) :
    (Program.ofSource p.render).tokens = p.tokens := by
  rw [Program.tokens, Program.lexemes_ofSource, toList_render]
  exact h.tokens_scan_spelled 0

/-- **READING BACK IS THE IDENTITY EXACTLY ON CANONICAL LISTS.**

The tokens of every source are canonical, so a program that was read from a
source survives being written out and read again, comments and all, and it
has an instruction as soon as it has a token. -/
theorem tokens_ofSource_render_iff :
    (∀ ts : List Token,
      (Program.ofSource (Program.ofTokens ts).render).tokens = ts ↔ Canonical ts) ∧
    (∀ source : String,
      Canonical (Program.ofSource source).tokens ∧
      (Program.ofSource (Program.ofSource source).render).tokens
        = (Program.ofSource source).tokens ∧
      (Program.ofSource source).hasInstructions = !(Program.ofSource source).isEmpty) := by
  refine ⟨fun ts => ⟨fun h => ?_, fun h => ?_⟩, fun source => ⟨?_, ?_, ?_⟩⟩
  · rw [← h]
    exact canonical_ofSource _
  · have hts : Canonical (Program.ofTokens ts).tokens := by
      rw [Program.tokens_ofTokens]
      exact h
    rw [hts.tokens_ofSource_render, Program.tokens_ofTokens]
  · exact canonical_ofSource source
  · exact (canonical_ofSource source).tokens_ofSource_render
  · rw [Program.hasInstructions, (canonical_ofSource source).any_isInstruction,
      Program.isEmpty, Program.tokens, List.isEmpty_map, Array.isEmpty_toList]

end Prairie
