/-
  Prairie.Proofs.Source.Outskirts
  ───────────────────────────────
  **BLANKS AROUND A SOURCE DO NOT COUNT.**

  No blank stands in a literal, so no literal reaches across one, and blanks in
  front of a text or behind it make no literal: a free text stays free.  In front they go
  into the first gap, which is trimmed, and behind they go into the rest,
  which makes no token.  So a source has the same tokens as what trimming
  leaves of it, at other spans:

      scan offset (blanks ++ cs)      = scan (offset + |blanks|) cs
      scan offset (cs ++ blanks)      = scan offset cs
      tokens (ofSource (trimmed s))   = tokens (ofSource s)
-/
import Prairie.Proofs.Source.Scan

namespace Prairie

open Scanner (scan)

variable {c : Char} {cs ds bs g : List Char}

/-! ## §1. Blanks and literals. -/

/-- No blank stands in a literal. -/
theorem Literal.not_isBlank (l : Literal) (h : c ∈ l.letters) : Text.isBlank c = false := by
  have key : ∀ l ∈ all, (l.letters.all fun c => !Text.isBlank c) = true := by decide
  have hall := List.all_eq_true.mp (key l (mem_all l)) c h
  rwa [Bool.not_eq_true'] at hall

/-- **What is in no literal keeps texts apart**: no literal reaches across it. -/
theorem Free.join (hcs : Free cs) (hc : ∀ l : Literal, c ∉ l.letters) (hds : Free ds) :
    Free (cs ++ c :: ds) := by
  intro l ⟨before, behind, hl⟩
  rw [List.append_assoc, List.append_eq_append_iff] at hl
  obtain ⟨mid, hmid, hrest⟩ | ⟨mid, hmid, hrest⟩ := hl
  · -- The literal begins in `cs` and cannot go on with `c`.
    rw [List.append_eq_append_iff] at hrest
    obtain ⟨extra, hextra, hbehind⟩ | ⟨extra, hextra, hbehind⟩ := hrest
    · exact hcs l ⟨before, extra, by rw [hmid, hextra, List.append_assoc]⟩
    · cases extra with
      | nil =>
          rw [List.append_nil] at hextra
          exact hcs l ⟨before, [], by rw [hmid, ← hextra, List.append_nil]⟩
      | cons d extra =>
          injection hbehind with hd
          refine hc l ?_
          rw [hextra, hd]
          exact List.mem_append_right _ List.mem_cons_self
  · cases mid with
    | nil =>
        obtain ⟨d, w, hw⟩ := List.exists_cons_of_ne_nil l.letters_ne_nil
        rw [List.nil_append, hw] at hrest
        injection hrest with hd
        refine hc l ?_
        rw [hw, hd]
        exact List.mem_cons_self
    | cons d mid =>
        injection hrest with hd hds'
        refine hds l ⟨mid, behind, ?_⟩
        rw [List.append_assoc]
        exact hds'.symm

theorem Literal.not_mem_of_isBlank (hc : Text.isBlank c = true) (l : Literal) : c ∉ l.letters := by
  intro h
  rw [l.not_isBlank h] at hc
  cases hc

theorem Free.blank_cons (hf : Free cs) (hc : Text.isBlank c = true) : Free (c :: cs) :=
  free_nil.join (Literal.not_mem_of_isBlank hc) hf

theorem Free.concat_blank (hf : Free cs) (hc : Text.isBlank c = true) : Free (cs ++ [c]) :=
  hf.join (Literal.not_mem_of_isBlank hc) free_nil

theorem Free.blanks_append (hf : Free cs) (hb : bs.all Text.isBlank = true) :
    Free (bs ++ cs) := by
  induction bs with
  | nil => exact hf
  | cons b bs ih =>
      rw [List.all_cons, Bool.and_eq_true] at hb
      exact (ih hb.2).blank_cons hb.1

theorem Free.append_blanks (hf : Free cs) (hb : bs.all Text.isBlank = true) :
    Free (cs ++ bs) := by
  induction bs generalizing cs with
  | nil => rwa [List.append_nil]
  | cons b bs ih =>
      rw [List.all_cons, Bool.and_eq_true] at hb
      have h := ih (hf.concat_blank hb.1) hb.2
      rwa [List.append_assoc] at h

/-! ## §2. Blanks and lexemes. -/

namespace Scanner

theorem tokens_shift (xs : List Lexeme) (n : Nat) :
    (xs.map (Lexeme.shift n)).map Lexeme.token = xs.map Lexeme.token := by
  rw [List.map_map]
  rfl

/-- The tokens of a text do not depend on where it begins. -/
theorem tokens_scan_shift (cs : List Char) (offset offset' : Nat) :
    (scan offset cs).map Lexeme.token = (scan offset' cs).map Lexeme.token := by
  rw [← Nat.add_zero offset, ← Nat.add_zero offset', scan_shift, scan_shift, tokens_shift,
    tokens_shift]

/-- Blanks in front of a gap are trimmed off, and the comment stays where it
is. -/
theorem commentOf?_blanks_append (hb : bs.all Text.isBlank = true) (offset : Nat) :
    commentOf? (bs ++ g) offset = commentOf? g (offset + Text.byteWidth bs) := by
  have hfront : (bs ++ g).takeWhile Text.isBlank = bs ++ g.takeWhile Text.isBlank := by
    refine List.takeWhile_append_of_pos fun b hmem => ?_
    exact List.all_eq_true.mp hb b hmem
  unfold commentOf?
  rw [Text.trim_blanks_append hb, hfront, Text.byteWidth_append, Nat.add_assoc]

/-- Blanks in front go into the first gap. -/
theorem scan_blanks_append (hb : bs.all Text.isBlank = true) (offset : Nat) :
    scan offset (bs ++ cs) = scan (offset + Text.byteWidth bs) cs := by
  rcases free_or_piece cs with hf | ⟨g, l, rest, hg, rfl⟩
  · rw [scan_free hf, scan_free (hf.blanks_append hb)]
  · have hassoc : bs ++ (g ++ l.letters ++ rest) = bs ++ g ++ l.letters ++ rest := by
      simp only [List.append_assoc]
    rw [hassoc, scan_piece (hg.blanks_append hb), scan_piece hg, pieceLexemes, pieceLexemes,
      commentOf?_blanks_append hb]
    simp only [Text.byteWidth_append, Nat.add_assoc]

/-- Blanks behind go into the rest. -/
theorem scan_append_blanks (hb : bs.all Text.isBlank = true) (offset : Nat) :
    scan offset (cs ++ bs) = scan offset cs := by
  induction cs using piece_induction generalizing offset with
  | free cs hf => rw [scan_free hf, scan_free (hf.append_blanks hb)]
  | piece g l rest hg ih => rw [List.append_assoc, scan_piece hg, scan_piece hg, ih]

end Scanner

/-! ## §3. Trimmed sources. -/

namespace Program

/-- **Trimming a source changes no token.** -/
theorem tokens_ofSource_trimmed (s : String) :
    (ofSource (Text.trimmed s)).tokens = (ofSource s).tokens := by
  obtain ⟨back, hsplit, hback⟩ := Text.trim_split s.toList
  have hfront : (s.toList.takeWhile Text.isBlank).all Text.isBlank = true := List.all_takeWhile
  unfold tokens
  rw [lexemes_ofSource, lexemes_ofSource, Text.toList_trimmed]
  conv_rhs => rw [hsplit]
  rw [Scanner.scan_append_blanks hback, Scanner.scan_blanks_append hfront]
  exact Scanner.tokens_scan_shift _ _ _

theorem tokens_ofSource_trimmedEnd (s : String) :
    (ofSource (Text.trimmedEnd s)).tokens = (ofSource s).tokens := by
  have hsplit : Text.trimEnd s.toList ++ s.toList.rtakeWhile Text.isBlank = s.toList :=
    List.rdropWhile_append_rtakeWhile
  have hback : (s.toList.rtakeWhile Text.isBlank).all Text.isBlank = true :=
    List.all_eq_true.mpr fun c hc => List.mem_rtakeWhile_imp hc
  unfold tokens
  rw [lexemes_ofSource, lexemes_ofSource, Text.toList_trimmedEnd]
  conv_rhs => rw [← hsplit, Scanner.scan_append_blanks hback]

theorem hasInstructions_ofSource_trimmed (s : String) :
    (ofSource (Text.trimmed s)).hasInstructions = (ofSource s).hasInstructions := by
  unfold hasInstructions
  rw [tokens_ofSource_trimmed]

end Program

end Prairie
