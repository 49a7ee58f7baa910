/-
  Prairie.Proofs.Source.Scan
  ──────────────────────────
  **THE SCANNER READS PIECE BY PIECE.**

  The scanner is fed single characters and looks only at the end of what it
  holds.  What it holds never contains a literal, so the first literal that
  it can find at the end is the first one there is:

      scan (free rest)         = nothing
      scan (gap ++ l ++ rest)  = comment of the gap, l, scan rest

  With `piece_induction` these two equations say all about it.  Where the text
begins moves the spans and does nothing else (`scan_shift`).
-/
import Prairie.Proofs.Source.Occurrence
import Prairie.Proofs.Text.Trim
import Prairie.Source.Scanner

namespace Prairie

/-- The span, `n` bytes further on. -/
def Span.shift (n : Nat) (sp : Span) : Span := ⟨n + sp.start, n + sp.stop⟩

/-- The lexeme, `n` bytes further on. -/
def Lexeme.shift (n : Nat) (x : Lexeme) : Lexeme := { x with span := x.span.map (Span.shift n) }

namespace Scanner

variable {s : Scanner} {g rest cs : List Char} {l : Literal} {c : Char}

/-! ## §1. The literal at the end. -/

/-- The scanner holds the newest character first, so it asks for a front. -/
theorem isPrefixOf_held_iff {held : List Char} :
    l.spelling.toList.reverse.isPrefixOf held = true ↔ l.letters <:+ held.reverse := by
  rw [List.isPrefixOf_iff_prefix, ← List.reverse_reverse held, List.reverse_prefix,
    List.reverse_reverse]
  rfl

theorem ending?_eq_none_iff {held : List Char} :
    ending? held = none ↔ ∀ l : Literal, ¬ l.letters <:+ held.reverse := by
  unfold ending?
  rw [List.find?_eq_none]
  constructor
  · intro h l hl
    exact h l l.mem_all (isPrefixOf_held_iff.mpr hl)
  · intro h l _ hl
    exact h l (isPrefixOf_held_iff.mp hl)

theorem ending?_of_suffix {held : List Char} (hl : l.letters <:+ held.reverse) :
    ending? held = some l := by
  cases he : ending? held with
  | none => exact absurd hl (ending?_eq_none_iff.mp he l)
  | some m =>
      unfold ending? at he
      have hfront := List.find?_some he
      have hm : m.letters <:+ held.reverse := isPrefixOf_held_iff.mp hfront
      -- Of two literals at the end, one is at the end of the other.
      rcases List.suffix_or_suffix_of_suffix hm hl with h1 | h1
      · rw [Literal.eq_of_suffix h1]
      · rw [Literal.eq_of_suffix h1]

/-! ## §2. One character. -/

/-- Where the held text begins once a character at `offset` is held. -/
def startAt (s : Scanner) (offset : Nat) : Nat := if s.held.isEmpty then offset else s.heldAt

/-- The lexemes that a gap at byte offset `start` and a literal make. -/
def pieceLexemes (g : List Char) (l : Literal) (start : Nat) : List Lexeme :=
  (commentOf? g start).toList ++ [lexemeOf l (start + Text.byteWidth g)]

theorem push_piece (found : Array Lexeme) (g : List Char) (l : Literal) (start : Nat) :
    (match commentOf? g start with
      | some comment => found.push comment
      | none => found).push (lexemeOf l (start + Text.byteWidth g))
      = found ++ pieceLexemes g l start := by
  unfold pieceLexemes
  cases commentOf? g start with
  | none => simp
  | some comment => simp

/-- A character that ends no literal is held. -/
theorem push_of_none (offset : Nat) (he : ending? (c :: s.held) = none) :
    s.push offset c = { s with held := c :: s.held, heldAt := s.startAt offset } := by
  unfold push startAt
  simp only [he]

/-- A character that ends a literal ends a piece, and nothing is held any more. -/
theorem push_of_some (offset : Nat) (he : ending? (c :: s.held) = some l) :
    s.push offset c = ⟨[], s.startAt offset,
      s.found ++ pieceLexemes ((c :: s.held).drop l.spelling.length).reverse l
        (s.startAt offset)⟩ := by
  unfold push
  simp only [he]
  exact congrArg (Scanner.mk [] (s.startAt offset)) (push_piece s.found _ l _)

theorem push_of_free (offset : Nat) (hf : Free (s.held.reverse ++ [c])) :
    s.push offset c = { s with held := c :: s.held, heldAt := s.startAt offset } := by
  refine push_of_none offset (ending?_eq_none_iff.mpr fun l hl => ?_)
  rw [List.reverse_cons] at hl
  exact hf l hl.isInfix

theorem push_of_literal (offset : Nat) (hl : s.held.reverse ++ [c] = g ++ l.letters) :
    s.push offset c = ⟨[], s.startAt offset,
      s.found ++ pieceLexemes g l (s.startAt offset)⟩ := by
  have hrev : (c :: s.held).reverse = g ++ l.letters := by rw [List.reverse_cons, hl]
  have he : ending? (c :: s.held) = some l := by
    refine ending?_of_suffix ?_
    rw [hrev]
    exact List.suffix_append _ _
  -- The gap is what is left when the literal is cut off.
  have hgap : ((c :: s.held).drop l.spelling.length).reverse = g := by
    have hlen : l.spelling.length = l.letters.length := by
      rw [Literal.letters, String.length_toList]
    rw [← List.reverse_reverse (c :: s.held), hrev, hlen, List.reverse_append,
      ← List.length_reverse, List.drop_left, List.reverse_reverse]
  rw [push_of_some offset he, hgap]

/-- A gap of blanks makes no comment. -/
theorem commentOf?_of_blank (h : g.all Text.isBlank = true) (offset : Nat) :
    commentOf? g offset = none := by
  unfold commentOf?
  rw [Text.trim_eq_nil_iff.mpr h]
  rfl

/-- The comment of a gap that is more than blanks. -/
theorem commentOf?_of_text (h : ¬ g.all Text.isBlank = true) (offset : Nat) :
    commentOf? g offset = some ⟨.comment (String.ofList (Text.trim g)),
      some ⟨offset + Text.byteWidth (g.takeWhile Text.isBlank),
        offset + Text.byteWidth (g.takeWhile Text.isBlank) + Text.byteWidth (Text.trim g)⟩⟩ := by
  have htrim : ¬ (Text.trim g).isEmpty = true := by
    rw [List.isEmpty_iff]
    exact mt Text.trim_eq_nil_iff.mp h
  simp only [commentOf?, if_neg htrim]

/-- The tokens of a gap: a comment with the trimmed gap, if it is more than
blanks. -/
def gapTokens (g : List Char) : List Token :=
  if g.all Text.isBlank then [] else [.comment (String.ofList (Text.trim g))]

theorem tokens_pieceLexemes (g : List Char) (l : Literal) (start : Nat) :
    (pieceLexemes g l start).map Lexeme.token = gapTokens g ++ [.literal l] := by
  rw [pieceLexemes, List.map_append]
  refine congrArg (· ++ [Token.literal l]) ?_
  unfold gapTokens
  by_cases hblank : g.all Text.isBlank = true
  · rw [commentOf?_of_blank hblank, if_pos hblank]
    rfl
  · rw [commentOf?_of_text hblank, if_neg hblank]
    rfl

/-! ## §3. A run of characters. -/

theorem feed_append (cs ds : List Char) (s : Scanner) (offset : Nat) :
    s.feed offset (cs ++ ds) = (s.feed offset cs).feed (offset + Text.byteWidth cs) ds := by
  induction cs generalizing s offset with
  | nil => rfl
  | cons c cs ih => rw [List.cons_append, feed, ih, feed, Text.byteWidth_cons, Nat.add_assoc]

/-- As long as the held text is free of literals, the scanner only holds. -/
theorem feed_of_free (offset : Nat) (hf : Free (s.held.reverse ++ cs)) :
    (s.feed offset cs).held = cs.reverse ++ s.held ∧
      (s.feed offset cs).found = s.found ∧
      (s.feed offset cs).startAt (offset + Text.byteWidth cs) = s.startAt offset := by
  induction cs generalizing s offset with
  | nil => exact ⟨rfl, rfl, rfl⟩
  | cons c cs ih =>
      have hsplit : s.held.reverse ++ c :: cs = s.held.reverse ++ [c] ++ cs := by
        rw [List.append_assoc, List.singleton_append]
      rw [hsplit] at hf
      have hpush := push_of_free offset (hf.of_infix (List.prefix_append _ _).isInfix)
      rw [← List.reverse_cons] at hf
      rw [feed, hpush]
      obtain ⟨hheld, hfound, hstart⟩ := ih (s := ⟨c :: s.held, s.startAt offset, s.found⟩)
        (offset + c.utf8Size) hf
      refine ⟨?_, hfound, ?_⟩
      · rw [hheld, List.reverse_cons, List.append_assoc, List.singleton_append]
      · rw [Text.byteWidth_cons, ← Nat.add_assoc, hstart]
        rfl

/-- A scanner that holds nothing reads a whole piece and holds nothing again. -/
theorem feed_piece (hg : Free g) (start offset : Nat) (found : Array Lexeme) :
    (Scanner.mk [] start found).feed offset (g ++ l.letters)
      = ⟨[], offset, found ++ pieceLexemes g l offset⟩ := by
  -- The piece is a free run and the one character that ends the literal.
  have hlast := List.dropLast_concat_getLast l.letters_ne_nil
  rw [← hlast, ← List.append_assoc, feed_append]
  have hfree : Free ((Scanner.mk [] start found).held.reverse ++ (g ++ l.letters.dropLast)) :=
    hg.append_dropLast
  obtain ⟨hheld, hfound, hstart⟩ := feed_of_free offset hfree
  rw [feed, feed, push_of_literal (g := g) (l := l), hstart, hfound]
  · rfl
  · rw [hheld, List.append_nil, List.reverse_reverse, List.append_assoc, hlast]

/-! ## §4. A whole text. -/

/-- The lexemes of a text that begins at byte offset `offset`. -/
def scan (offset : Nat) (cs : List Char) : List Lexeme :=
  (feed {} offset cs).found.toList

theorem toList_found_feed (cs : List Char) (start offset : Nat) (found : Array Lexeme) :
    ((Scanner.mk [] start found).feed offset cs).found.toList
      = found.toList ++ scan offset cs := by
  induction cs using piece_induction generalizing start offset found with
  | free cs hf =>
      rw [scan, (feed_of_free (s := ⟨[], start, found⟩) offset hf).2.1,
        (feed_of_free (s := {}) offset hf).2.1, Array.toList_empty, List.append_nil]
  | piece g l rest hg ih =>
      rw [scan, feed_append, feed_piece hg, ih, feed_append, feed_piece hg, ih]
      simp

theorem scan_free {offset : Nat} (hf : Free cs) : scan offset cs = [] := by
  rw [scan, (feed_of_free (s := {}) offset hf).2.1]

theorem scan_piece {offset : Nat} (hg : Free g) :
    scan offset (g ++ l.letters ++ rest)
      = pieceLexemes g l offset ++ scan (offset + Text.byteWidth (g ++ l.letters)) rest := by
  rw [scan, feed_append, feed_piece hg, toList_found_feed]
  simp

/-- The tokens of a text: those of the gap, the literal, those of the rest. -/
theorem tokens_scan_piece {offset : Nat} (hg : Free g) :
    (scan offset (g ++ l.letters ++ rest)).map Lexeme.token
      = gapTokens g ++ .literal l ::
        (scan (offset + Text.byteWidth (g ++ l.letters)) rest).map Lexeme.token := by
  rw [scan_piece hg, List.map_append, tokens_pieceLexemes, List.append_assoc,
    List.singleton_append]

/-! ## §5. Where a text begins. -/

theorem lexemeOf_shift (l : Literal) (n start : Nat) :
    lexemeOf l (n + start) = (lexemeOf l start).shift n := by
  unfold lexemeOf Lexeme.shift
  rw [Nat.add_assoc]
  rfl

theorem commentOf?_shift (g : List Char) (n start : Nat) :
    commentOf? g (n + start) = (commentOf? g start).map (Lexeme.shift n) := by
  by_cases hblank : g.all Text.isBlank = true
  · rw [commentOf?_of_blank hblank, commentOf?_of_blank hblank]
    rfl
  · rw [commentOf?_of_text hblank, commentOf?_of_text hblank, Nat.add_assoc, Nat.add_assoc]
    rfl

theorem pieceLexemes_shift (g : List Char) (l : Literal) (n start : Nat) :
    pieceLexemes g l (n + start) = (pieceLexemes g l start).map (Lexeme.shift n) := by
  unfold pieceLexemes
  rw [commentOf?_shift, Nat.add_assoc, lexemeOf_shift, List.map_append, Option.toList_map]
  rfl

/-- **Where a text begins moves its spans**, and does nothing else. -/
theorem scan_shift (cs : List Char) (n offset : Nat) :
    scan (n + offset) cs = (scan offset cs).map (Lexeme.shift n) := by
  induction cs using piece_induction generalizing offset with
  | free cs hf =>
      rw [scan_free hf, scan_free hf]
      rfl
  | piece g l rest hg ih =>
      rw [scan_piece hg, scan_piece hg, List.map_append, pieceLexemes_shift, Nat.add_assoc, ih]

end Scanner

theorem utf8ByteSize_spelling (l : Literal) :
    l.spelling.utf8ByteSize = Text.byteWidth l.letters := by
  have key : ∀ l ∈ Literal.all, l.spelling.utf8ByteSize = Text.byteWidth l.letters := by
    decide
  exact key l l.mem_all

theorem Program.lexemes_ofSource (source : String) :
    (Program.ofSource source).lexemes.toList = Scanner.scan 0 source.toList := rfl

/-- **A source has a token just when a literal stands in it**: a text is made a
comment only in front of one. -/
theorem Program.tokens_ofSource_eq_nil_iff {source : String} :
    (Program.ofSource source).tokens = [] ↔ Free source.toList := by
  rw [Program.tokens, Program.lexemes_ofSource]
  constructor
  · intro hnil
    rcases free_or_piece source.toList with hfree | ⟨g, l, rest, hg, hsource⟩
    · exact hfree
    · rw [hsource, Scanner.tokens_scan_piece hg] at hnil
      exact absurd hnil (List.append_ne_nil_of_right_ne_nil _ (List.cons_ne_nil _ _))
  · intro hfree
    rw [Scanner.scan_free hfree, List.map_nil]

end Prairie
