/-
  Prairie.Proofs.Source.Insertion
  ───────────────────────────────
  **BLANKS BETWEEN TOKENS DO NOT COUNT.**

  Put blanks into a source at an offset `q` that is inside no span.  It falls
  into the gap before a literal, at one end of the gap's comment, or into the
  text behind the last literal, and that stays free of literals:

      blanks  comment  blanks  literal        blanks … half a word
            ↑        ↑        ↑                    ↑      ↑

  Wherever it falls, the tokens stay as they are, and each span stays where it
  is if it is before `q`, and MAKES ROOM for the blanks if it is behind:

      scan (a ++ blanks ++ b)  =  scan (a ++ b), with room made at |a|
-/
import Prairie.Proofs.Source.Outskirts
import Prairie.Proofs.Source.Tiling

namespace Prairie

open Text (byteWidth)
open Scanner (scan pieceLexemes)

variable {a b w g cs rest : List Char} {l : Literal} {x : Lexeme} {offset q n : Nat}

/-! ## §1. Spans that make room. -/

/-- The span when `n` bytes are put in at offset `q`: what begins there or later
is moved. -/
def Span.makeRoom (q n : Nat) (sp : Span) : Span := if q ≤ sp.start then sp.shift n else sp

/-- The lexeme when `n` bytes are put in at offset `q`. -/
def Lexeme.makeRoom (q n : Nat) (x : Lexeme) : Lexeme :=
  { x with span := x.span.map (Span.makeRoom q n) }

/-- The offset is strictly inside the span of the lexeme. -/
def Lexeme.Around (q : Nat) (x : Lexeme) : Prop :=
  ∃ sp, x.span = some sp ∧ sp.start < q ∧ q < sp.stop

theorem Lexeme.makeRoom_of_le {sp : Span} (hx : x.span = some sp) (h : q ≤ sp.start) :
    x.makeRoom q n = x.shift n := by
  unfold makeRoom shift
  rw [hx, Option.map_some, Option.map_some, Span.makeRoom, if_pos h]

theorem Lexeme.makeRoom_of_lt {sp : Span} (hx : x.span = some sp) (h : sp.start < q) :
    x.makeRoom q n = x := by
  unfold makeRoom
  rw [hx, Option.map_some, Span.makeRoom, if_neg (Nat.not_le_of_lt h), ← hx]

/-- Every lexeme of a text has a span, and it is inside the text. -/
theorem span_of_mem_scan (hx : x ∈ scan offset cs) :
    ∃ sp, x.span = some sp ∧ offset ≤ sp.start ∧ sp.start < sp.stop ∧
      sp.stop ≤ offset + byteWidth cs := by
  obtain ⟨ys, zs, hsplit⟩ := List.append_of_mem hx
  have htiles := tiles_scan cs offset
  rw [hsplit] at htiles
  obtain ⟨before, gap, behind, rfl, -, text_ne, hspan, -⟩ := htiles.split
  have hpos := Text.byteWidth_pos text_ne
  refine ⟨_, hspan, ?_, ?_, ?_⟩
  · exact Nat.le_add_right _ _
  · show offset + byteWidth (before ++ gap) < offset + byteWidth (before ++ gap ++ _)
    rw [Text.byteWidth_append (before ++ gap)]
    omega
  · show offset + byteWidth _ ≤ _
    rw [Text.byteWidth_append _ behind]
    omega

/-- Behind the offset everything moves. -/
theorem makeRoom_scan_behind (h : q ≤ offset) :
    (scan offset cs).map (Lexeme.makeRoom q n) = (scan offset cs).map (Lexeme.shift n) := by
  refine List.map_congr_left fun x hx => ?_
  obtain ⟨sp, hsp, hle, -⟩ := span_of_mem_scan hx
  exact Lexeme.makeRoom_of_le hsp (Nat.le_trans h hle)

/-- Before the offset nothing moves. -/
theorem makeRoom_scan_before (h : offset + byteWidth cs ≤ q) :
    (scan offset cs).map (Lexeme.makeRoom q n) = scan offset cs := by
  have hsame : (scan offset cs).map (Lexeme.makeRoom q n) = (scan offset cs).map id := by
    refine List.map_congr_left fun x hx => ?_
    obtain ⟨sp, hsp, -, hlt, hle⟩ := span_of_mem_scan hx
    exact Lexeme.makeRoom_of_lt hsp (by omega)
  rw [hsame, List.map_id]

theorem scan_gap_literal (hg : Free g) : scan offset (g ++ l.letters) = pieceLexemes g l offset := by
  have hpiece : scan offset (g ++ l.letters ++ []) = pieceLexemes g l offset ++ scan _ [] :=
    Scanner.scan_piece hg
  rw [List.append_nil, Scanner.scan_free free_nil, List.append_nil] at hpiece
  exact hpiece

/-! ## §2. Blanks in a gap. -/

/-- Blanks in a free text leave it free. -/
theorem Free.insert_blanks (h : Free (a ++ b)) (hw : w.all Text.isBlank = true) :
    Free (a ++ w ++ b) := by
  cases w with
  | nil =>
      rw [List.append_nil]
      exact h
  | cons c w =>
      rw [List.all_cons, Bool.and_eq_true] at hw
      have ha : Free a := h.of_infix (List.prefix_append a b).isInfix
      have hb : Free b := h.of_infix (List.suffix_append a b).isInfix
      rw [List.append_assoc]
      exact ha.join (Literal.not_mem_of_isBlank hw.1) (hb.blanks_append hw.2)

theorem Text.byteWidth_takeWhile_lt (h : ¬ g.all isBlank = true) :
    byteWidth (g.takeWhile isBlank) < byteWidth g := by
  conv_rhs => rw [← List.takeWhile_append_dropWhile (p := isBlank) (l := g)]
  rw [byteWidth_append]
  refine Nat.lt_add_of_pos_right (byteWidth_pos fun hnil => h ?_)
  rw [List.dropWhile_eq_nil_iff] at hnil
  exact List.all_eq_true.mpr hnil

namespace Scanner

/-- Blanks at the end of a gap make no difference to its comment. -/
theorem commentOf?_append_blanks (hb : b.all Text.isBlank = true) :
    commentOf? (a ++ b) offset = commentOf? a offset := by
  by_cases ha : a.all Text.isBlank = true
  · have hab : (a ++ b).all Text.isBlank = true := by
      rw [List.all_append, ha, hb]
      rfl
    rw [commentOf?_of_blank ha, commentOf?_of_blank hab]
  · have hab : ¬ (a ++ b).all Text.isBlank = true := by
      rw [List.all_append, hb, Bool.and_true]
      exact ha
    rw [commentOf?_of_text ha, commentOf?_of_text hab, Text.trim_append_blanks hb,
      Text.takeWhile_append_of_text ha]

/-- The comment of a gap is inside the gap. -/
theorem span_of_mem_commentOf? (hx : x ∈ commentOf? g offset) :
    ∃ sp, x.span = some sp ∧ sp.start < offset + byteWidth g := by
  by_cases hg : g.all Text.isBlank = true
  · rw [commentOf?_of_blank hg] at hx
    cases hx
  · rw [commentOf?_of_text hg] at hx
    injection hx with hx
    subst hx
    refine ⟨_, rfl, ?_⟩
    have hlt := Text.byteWidth_takeWhile_lt hg
    exact Nat.add_lt_add_left hlt offset

/-- **Inside a comment** is where neither side of the gap is blank. -/
theorem exists_around (offset : Nat) (ha : ¬ a.all Text.isBlank = true)
    (hb : ¬ b.all Text.isBlank = true) :
    ∃ x ∈ commentOf? (a ++ b) offset, x.Around (offset + byteWidth a) := by
  have hab : ¬ (a ++ b).all Text.isBlank = true := by
    rw [List.all_append, Bool.and_eq_true]
    exact fun h => ha h.1
  refine ⟨_, commentOf?_of_text hab offset, _, rfl, ?_, ?_⟩
  · rw [Text.takeWhile_append_of_text ha]
    exact Nat.add_lt_add_left (Text.byteWidth_takeWhile_lt ha) offset
  · show offset + byteWidth a < _
    obtain ⟨back, hsplit, hback⟩ := Text.trim_split (a ++ b)
    rw [Nat.add_assoc, ← Text.byteWidth_append]
    refine Nat.add_lt_add_left ?_ offset
    -- The cut is before the end of the comment, or `b` would be blank.
    obtain ⟨extra, hextra, hb'⟩ | ⟨extra, hextra, hback'⟩ := List.append_eq_append_iff.mp hsplit
    · rw [hextra, Text.byteWidth_append]
      refine Nat.lt_add_of_pos_right (Text.byteWidth_pos fun hnil => hb ?_)
      rw [hb', hnil]
      exact hback
    · refine absurd ?_ hb
      rw [hback', List.all_append, Bool.and_eq_true] at hback
      exact hback.2

end Scanner

/-! ## §3. Blanks in a text. -/

/-- Blanks in a gap, at the front or at the back of it: what is there is
trimmed off. -/
theorem pieceLexemes_insert (hb : b.all Text.isBlank = true) (hw : w.all Text.isBlank = true) :
    pieceLexemes (a ++ w ++ b) l offset
      = (pieceLexemes (a ++ b) l offset).map
          (Lexeme.makeRoom (offset + byteWidth a) (byteWidth w)) := by
  have hwb : (w ++ b).all Text.isBlank = true := by
    rw [List.all_append, hw, hb]
    rfl
  -- The comment is that of `a` and stays, the literal is behind and moves.
  have hcomment : ((Scanner.commentOf? a offset).toList).map
      (Lexeme.makeRoom (offset + byteWidth a) (byteWidth w))
        = (Scanner.commentOf? a offset).toList := by
    cases hc : Scanner.commentOf? a offset with
    | none => rfl
    | some x =>
        obtain ⟨sp, hsp, hlt⟩ := Scanner.span_of_mem_commentOf? hc
        exact congrArg (fun y => [y]) (Lexeme.makeRoom_of_lt hsp hlt)
  have hliteral : (Scanner.lexemeOf l (offset + byteWidth (a ++ b))).makeRoom
      (offset + byteWidth a) (byteWidth w)
        = Scanner.lexemeOf l (offset + byteWidth (a ++ (w ++ b))) := by
    have hle : offset + byteWidth a ≤ offset + byteWidth (a ++ b) := by
      rw [Text.byteWidth_append]
      omega
    have hwidth : offset + byteWidth (a ++ (w ++ b)) = byteWidth w + (offset + byteWidth (a ++ b)) := by
      simp only [Text.byteWidth_append]
      omega
    rw [Lexeme.makeRoom_of_le rfl hle, hwidth]
    exact (Scanner.lexemeOf_shift l _ _).symm
  unfold pieceLexemes
  rw [List.append_assoc, Scanner.commentOf?_append_blanks hwb, Scanner.commentOf?_append_blanks hb,
    List.map_append, hcomment, List.map_singleton, hliteral]

/-- A cut in front of which no literal stands, and that is not inside the first
one, is in the gap before it. -/
theorem cut_in_gap (ha : Free a) (hab : a ++ b = g ++ (l.letters ++ rest))
    (hq : ¬ (Scanner.lexemeOf l (offset + byteWidth g)).Around (offset + byteWidth a)) :
    ∃ b', g = a ++ b' ∧ b = b' ++ (l.letters ++ rest) := by
  obtain ⟨b', hgap, hb⟩ | ⟨a', rfl, hl⟩ := List.append_eq_append_iff.mp hab
  · exact ⟨b', hgap, hb⟩
  cases a' with
  | nil => exact ⟨[], by rw [List.append_nil, List.append_nil], hl.symm⟩
  | cons c a' =>
      exfalso
      obtain ⟨extra, hextra, -⟩ | ⟨extra, hextra, -⟩ := List.append_eq_append_iff.mp hl
      · -- The literal would be over before the cut.
        exact ha l ⟨g, extra, by rw [hextra, List.append_assoc]⟩
      · refine hq ⟨_, rfl, ?_, ?_⟩
        · show offset + byteWidth g < offset + byteWidth (g ++ c :: a')
          have hpos := Text.byteWidth_pos (List.cons_ne_nil c a')
          rw [Text.byteWidth_append]
          omega
        · show _ < offset + byteWidth g + l.spelling.utf8ByteSize
          have hne : extra ≠ [] := by
            rintro rfl
            rw [List.append_nil] at hextra
            exact ha l ⟨g, [], by rw [hextra, List.append_nil]⟩
          have hpos := Text.byteWidth_pos hne
          rw [utf8ByteSize_spelling, hextra, Text.byteWidth_append, Text.byteWidth_append]
          omega

/-- Blanks in front of the first literal. -/
theorem scan_insert_of_free (ha : Free a) (hw : w.all Text.isBlank = true) (offset : Nat)
    (hq : ∀ x ∈ scan offset (a ++ b), ¬ x.Around (offset + byteWidth a)) :
    scan offset (a ++ (w ++ b))
      = (scan offset (a ++ b)).map (Lexeme.makeRoom (offset + byteWidth a) (byteWidth w)) := by
  by_cases hblank : a.all Text.isBlank = true
  · -- All that stands before the cut is blank, with `w` and without.
    rw [Scanner.scan_blanks_append hblank, Scanner.scan_blanks_append hblank,
      Scanner.scan_blanks_append hw, makeRoom_scan_behind (Nat.le_refl _), ← Scanner.scan_shift,
      Nat.add_comm]
  obtain hf | ⟨g, l, rest, hg, hab⟩ := free_or_piece (a ++ b)
  · have hf' := hf.insert_blanks hw
    rw [List.append_assoc] at hf'
    rw [Scanner.scan_free hf, Scanner.scan_free hf']
    rfl
  · rw [hab, Scanner.scan_piece hg] at hq
    have hliteral : ¬ (Scanner.lexemeOf l (offset + byteWidth g)).Around (offset + byteWidth a) :=
      hq _ (List.mem_append_left _ (List.mem_append_right _ List.mem_cons_self))
    rw [List.append_assoc] at hab
    obtain ⟨b', rfl, rfl⟩ := cut_in_gap ha hab hliteral
    -- The cut is not inside the comment, so it is behind it.
    have hback : b'.all Text.isBlank = true := by
      by_contra hback
      obtain ⟨x, hx, haround⟩ := Scanner.exists_around offset hblank hback
      refine hq x (List.mem_append_left _ (List.mem_append_left _ ?_)) haround
      exact Option.mem_toList.mpr hx
    have hassoc : a ++ (w ++ (b' ++ (l.letters ++ rest))) = a ++ w ++ b' ++ l.letters ++ rest := by
      simp only [List.append_assoc]
    have hassoc' : a ++ (b' ++ (l.letters ++ rest)) = a ++ b' ++ l.letters ++ rest := by
      simp only [List.append_assoc]
    have hbehind : offset + byteWidth a ≤ offset + byteWidth (a ++ b' ++ l.letters) := by
      simp only [Text.byteWidth_append]
      omega
    have hmoved : offset + byteWidth (a ++ w ++ b' ++ l.letters)
        = byteWidth w + (offset + byteWidth (a ++ b' ++ l.letters)) := by
      simp only [Text.byteWidth_append]
      omega
    rw [hassoc, hassoc', Scanner.scan_piece (hg.insert_blanks hw), Scanner.scan_piece hg,
      List.map_append, pieceLexemes_insert hback hw, makeRoom_scan_behind hbehind,
      ← Scanner.scan_shift, hmoved]

/-- **Blanks in a text make room for themselves**, unless they are put into a
span. -/
theorem scan_insert (a : List Char) (hw : w.all Text.isBlank = true) (offset : Nat)
    (hq : ∀ x ∈ scan offset (a ++ b), ¬ x.Around (offset + byteWidth a)) :
    scan offset (a ++ (w ++ b))
      = (scan offset (a ++ b)).map (Lexeme.makeRoom (offset + byteWidth a) (byteWidth w)) := by
  -- The pieces of `a` stay; what is left of it is free.
  induction a using piece_induction generalizing offset with
  | free a ha => exact scan_insert_of_free ha hw offset hq
  | piece g l rest hg ih =>
      have hwidth : offset + byteWidth (g ++ l.letters ++ rest)
          = offset + byteWidth (g ++ l.letters) + byteWidth rest := by
        rw [Text.byteWidth_append _ rest, Nat.add_assoc]
      rw [List.append_assoc _ rest, Scanner.scan_piece hg, hwidth] at hq
      rw [List.append_assoc _ rest, List.append_assoc _ rest, Scanner.scan_piece hg,
        Scanner.scan_piece hg, List.map_append, hwidth]
      have hrest := ih (offset + byteWidth (g ++ l.letters)) fun x hx =>
        hq x (List.mem_append_right _ hx)
      have hfront : offset + byteWidth (g ++ l.letters)
          ≤ offset + byteWidth (g ++ l.letters) + byteWidth rest := Nat.le_add_right _ _
      rw [hrest, ← scan_gap_literal hg, makeRoom_scan_before hfront]

/-! ## §4. Blanks in a source. -/

namespace Program

theorem tokens_of_makeRoom {p p' : Program}
    (h : p'.lexemes.toList = p.lexemes.toList.map (Lexeme.makeRoom q n)) :
    p'.tokens = p.tokens := by
  unfold tokens
  rw [h, List.map_map]
  rfl

theorem span?_of_makeRoom {p p' : Program}
    (h : p'.lexemes.toList = p.lexemes.toList.map (Lexeme.makeRoom q n)) (i : Nat) :
    p'.span? i = (p.span? i).map (Span.makeRoom q n) := by
  unfold span?
  rw [← Array.getElem?_toList, ← Array.getElem?_toList, h, List.getElem?_map]
  cases p.lexemes.toList[i]? <;> rfl

/-- A lexeme of a program is one at some index. -/
theorem span?_of_mem {p : Program} (hx : x ∈ p.lexemes.toList) : ∃ i, p.span? i = x.span := by
  obtain ⟨i, hi⟩ := List.mem_iff_getElem?.mp hx
  refine ⟨i, ?_⟩
  rw [span?, ← Array.getElem?_toList, hi]
  rfl

end Program

/-- **BLANKS BETWEEN TOKENS DO NOT COUNT.**  Cut any source in two where the cut
is not strictly inside the span of a token: at its ends, next to a literal, at
the edge of a comment, among blanks, or in the text behind the last literal.
Put any blanks there.  The tokens are the same, comment texts included; each
span is before the cut or behind it, stays where it is if it is before, and is
moved by the bytes of the blanks if it is behind.

So a source that is trimmed, at both ends or at the back only, has the same
tokens. -/
theorem blanks_do_not_count :
    (∀ a w b : String, w.toList.all Text.isBlank = true →
      (∀ i sp, (Program.ofSource (a ++ b)).span? i = some sp →
        ¬ (sp.start < a.utf8ByteSize ∧ a.utf8ByteSize < sp.stop)) →
      (Program.ofSource (a ++ w ++ b)).tokens = (Program.ofSource (a ++ b)).tokens ∧
      ∀ i sp, (Program.ofSource (a ++ b)).span? i = some sp →
        (sp.stop ≤ a.utf8ByteSize ∨ a.utf8ByteSize ≤ sp.start) ∧
        (sp.stop ≤ a.utf8ByteSize → (Program.ofSource (a ++ w ++ b)).span? i = some sp) ∧
        (a.utf8ByteSize ≤ sp.start →
          (Program.ofSource (a ++ w ++ b)).span? i = some (sp.shift w.utf8ByteSize))) ∧
    ∀ s : String,
      (Program.ofSource (Text.trimmed s)).tokens = (Program.ofSource s).tokens ∧
      (Program.ofSource (Text.trimmedEnd s)).tokens = (Program.ofSource s).tokens := by
  refine ⟨?_, fun s => ⟨Program.tokens_ofSource_trimmed s, Program.tokens_ofSource_trimmedEnd s⟩⟩
  intro a w b hw hq
  have hmem : ∀ x ∈ scan 0 (a.toList ++ b.toList), ¬ x.Around (0 + byteWidth a.toList) := by
    intro x hx ⟨sp, hsp, hstart, hstop⟩
    rw [Nat.zero_add, Text.byteWidth_toList] at hstart hstop
    rw [← String.toList_append, ← Program.lexemes_ofSource] at hx
    obtain ⟨i, hi⟩ := Program.span?_of_mem hx
    exact hq i sp (hi.trans hsp) ⟨hstart, hstop⟩
  have hlexemes : (Program.ofSource (a ++ w ++ b)).lexemes.toList
      = (Program.ofSource (a ++ b)).lexemes.toList.map
          (Lexeme.makeRoom a.utf8ByteSize w.utf8ByteSize) := by
    have hscan := scan_insert a.toList hw 0 hmem
    rw [Nat.zero_add, Text.byteWidth_toList, Text.byteWidth_toList] at hscan
    rw [Program.lexemes_ofSource, Program.lexemes_ofSource, String.toList_append,
      String.toList_append, String.toList_append, List.append_assoc, hscan]
  refine ⟨Program.tokens_of_makeRoom hlexemes, fun i sp hsp => ?_⟩
  have hmoved := Program.span?_of_makeRoom hlexemes i
  rw [hsp, Option.map_some] at hmoved
  -- A span is not empty, so one that ends before the cut begins before it.
  have hlt : sp.start < sp.stop := by
    obtain ⟨x, hx, hxsp⟩ := Program.lexeme_of_span? hsp
    obtain ⟨sp', hsp', -, hlt, -⟩ := span_of_mem_scan (List.mem_of_getElem? hx)
    rw [hxsp] at hsp'
    injection hsp' with hsp'
    rw [hsp']
    exact hlt
  have hcut := hq i sp hsp
  refine ⟨by omega, fun hstop => ?_, fun hstart => ?_⟩
  · rw [hmoved, Span.makeRoom, if_neg (by omega)]
  · rw [hmoved, Span.makeRoom, if_pos hstart]

/-- The edge of a comment, with half a word behind the last literal. -/
theorem blanks_do_not_count_edge :
    (∀ i sp, (Program.ofSource ("  nöte" ++ "( buff")).span? i = some sp →
      ¬ (sp.start < 7 ∧ 7 < sp.stop)) ∧
    (Program.ofSource ("  nöte" ++ "\u2003\n" ++ "( buff")).tokens
      = [.comment "nöte", .literal .loopBegin] ∧
    (Program.ofSource ("  nöte" ++ "\u2003\n" ++ "( buff")).span? 0 = some ⟨2, 7⟩ ∧
    (Program.ofSource ("  nöte" ++ "\u2003\n" ++ "( buff")).span? 1 = some ⟨11, 12⟩ := by
  have hspans : (Program.ofSource ("  nöte" ++ "( buff")).lexemes.toList.map Lexeme.span
      = [some ⟨2, 7⟩, some ⟨7, 8⟩] := by decide +kernel
  have hcut : ∀ i sp, (Program.ofSource ("  nöte" ++ "( buff")).span? i = some sp →
      ¬ (sp.start < 7 ∧ 7 < sp.stop) := by
    intro i sp hsp
    obtain ⟨x, hx, hxsp⟩ := Program.lexeme_of_span? hsp
    have hmem := List.mem_map_of_mem (f := Lexeme.span) (List.mem_of_getElem? hx)
    rw [hspans, hxsp] at hmem
    simp only [List.mem_cons, Option.some.injEq, List.not_mem_nil, or_false] at hmem
    obtain rfl | rfl := hmem
    · decide
    · decide
  obtain ⟨htokens, hspan⟩ :=
    blanks_do_not_count.1 "  nöte" "\u2003\n" "( buff" (by decide) hcut
  refine ⟨hcut, ?_, ?_, ?_⟩
  · rw [htokens]
    decide +kernel
  · exact (hspan 0 ⟨2, 7⟩ (by decide +kernel)).2.1 (by decide)
  · exact (hspan 1 ⟨7, 8⟩ (by decide +kernel)).2.2 (by decide)

end Prairie
