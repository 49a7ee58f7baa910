/-
  Prairie.Proofs.Source.Tiling
  ────────────────────────────
  **SPANS LOCATE EVERY TOKEN IN THE SOURCE.**

  The scanner never looks back at the source: it computes a span from where
  its held text began and how wide the trimmed-off blanks are.  The spans are
  right nevertheless, and the reason is one picture.  The lexemes TILE the
  source (`Tiles`):

      blanks  text₀  blanks  text₁  …  blanks  textₙ  (no literal)

  with each text at its span.  Everything about spans is read off a cut of
  this row at one lexeme (`Tiles.split`): its text stands between the ends of
  its span, what precedes it is tiled by the lexemes before, and what follows
  it by the lexemes behind.
-/
import Prairie.Proofs.Source.Scan
import Prairie.Proofs.Text.Between

namespace Prairie

open Text (byteWidth Between)

variable {offset i : Nat} {cs gap : List Char} {l : Literal} {t : Token} {x y : Lexeme}
  {xs ys zs : List Lexeme}

/-! ## §1. Lexemes that tile a text. -/

/-- The lexemes tile the text that begins at byte offset `offset`: blanks and
the text of a lexeme at its span, over and over, and behind the last one a
text without any literal.  A comment holds no literal either. -/
inductive Tiles : Nat → List Char → List Lexeme → Prop where
  | rest {offset : Nat} {cs : List Char} (free : Free cs) : Tiles offset cs []
  | lexeme {offset : Nat} {gap behind : List Char} {t : Token} {xs : List Lexeme}
      (blank : gap.all Text.isBlank = true) (text_ne : t.text.toList ≠ [])
      (comment_free : t.literal? = none → Free t.text.toList)
      (tiles : Tiles (offset + byteWidth (gap ++ t.text.toList)) behind xs) :
      Tiles offset (gap ++ t.text.toList ++ behind)
        (⟨t, some ⟨offset + byteWidth gap, offset + byteWidth (gap ++ t.text.toList)⟩⟩ :: xs)

/-- Blanks and a literal in front of a tiled text. -/
theorem Tiles.literal_cons {behind : List Char} (blank : gap.all Text.isBlank = true)
    (h : Tiles (offset + byteWidth (gap ++ l.letters)) behind xs) :
    Tiles offset (gap ++ l.letters ++ behind)
      (Scanner.lexemeOf l (offset + byteWidth gap) :: xs) := by
  have hstop : offset + byteWidth gap + l.spelling.utf8ByteSize
      = offset + byteWidth (gap ++ l.letters) := by
    rw [utf8ByteSize_spelling, Text.byteWidth_append]
    omega
  unfold Scanner.lexemeOf
  rw [hstop]
  refine Tiles.lexeme (t := .literal l) blank l.letters_ne_nil ?_ h
  intro hnone
  cases hnone

/-- The lexemes of a free gap and a literal tile them. -/
theorem Tiles.piece {rest : List Char} (hg : Free gap)
    (h : Tiles (offset + byteWidth (gap ++ l.letters)) rest xs) :
    Tiles offset (gap ++ l.letters ++ rest) (Scanner.pieceLexemes gap l offset ++ xs) := by
  unfold Scanner.pieceLexemes
  by_cases hblank : gap.all Text.isBlank = true
  · rw [Scanner.commentOf?_of_blank hblank]
    exact h.literal_cons hblank
  · -- The trimmed gap is a tile, and the blanks behind it go with the literal.
    have htrim : Text.trim gap ≠ [] := mt Text.trim_eq_nil_iff.mp hblank
    obtain ⟨back, hsplit, hback⟩ := Text.trim_split gap
    have htext : (Token.comment (String.ofList (Text.trim gap))).text.toList = Text.trim gap :=
      String.toList_ofList
    have hfront : (gap.takeWhile Text.isBlank).all Text.isBlank = true := List.all_takeWhile
    have htiles : Tiles (offset + byteWidth (gap.takeWhile Text.isBlank ++ Text.trim gap))
        (back ++ l.letters ++ rest)
        (Scanner.lexemeOf l (offset + byteWidth gap) :: xs) := by
      have hstart : offset + byteWidth (gap.takeWhile Text.isBlank ++ Text.trim gap)
          + byteWidth back = offset + byteWidth gap := by
        rw [Nat.add_assoc, ← Text.byteWidth_append, ← hsplit]
      have hstop : offset + byteWidth (gap.takeWhile Text.isBlank ++ Text.trim gap)
          + byteWidth (back ++ l.letters) = offset + byteWidth (gap ++ l.letters) := by
        rw [Text.byteWidth_append back, ← Nat.add_assoc, hstart, Text.byteWidth_append gap,
          Nat.add_assoc]
      rw [← hstart]
      refine Tiles.literal_cons hback ?_
      rw [hstop]
      exact h
    have hfree : Free (Text.trim gap) := hg.of_infix (Text.trim_infix gap)
    have htile := Tiles.lexeme (t := .comment (String.ofList (Text.trim gap))) hfront
      (by rw [htext]; exact htrim) (fun _ => by rw [htext]; exact hfree)
      (by rw [htext]; exact htiles)
    rw [htext] at htile
    have hcs : gap ++ l.letters ++ rest = gap.takeWhile Text.isBlank ++ Text.trim gap
        ++ (back ++ l.letters ++ rest) := by
      rw [← List.append_assoc, ← List.append_assoc, ← hsplit]
    rw [hcs, Scanner.commentOf?_of_text hblank, Nat.add_assoc, ← Text.byteWidth_append]
    exact htile

/-- **The lexemes of a text tile it.** -/
theorem tiles_scan (cs : List Char) (offset : Nat) : Tiles offset cs (Scanner.scan offset cs) := by
  induction cs using piece_induction generalizing offset with
  | free cs hf =>
      rw [Scanner.scan_free hf]
      exact .rest hf
  | piece g l rest hg ih =>
      rw [Scanner.scan_piece hg]
      exact (ih _).piece hg

/-! ## §2. The row, cut at one lexeme. -/

/-- **A tiled text, cut at one of its lexemes.**  The lexemes before tile what
precedes its blanks, and those behind it tile what follows. -/
theorem Tiles.split (h : Tiles offset cs (ys ++ x :: zs)) :
    ∃ before gap behind, cs = before ++ gap ++ x.token.text.toList ++ behind ∧
      gap.all Text.isBlank = true ∧ x.token.text.toList ≠ [] ∧
      x.span = some ⟨offset + byteWidth (before ++ gap),
        offset + byteWidth (before ++ gap ++ x.token.text.toList)⟩ ∧
      Tiles offset before ys ∧
      Tiles (offset + byteWidth (before ++ gap ++ x.token.text.toList)) behind zs := by
  induction ys generalizing offset cs with
  | nil =>
      cases h with
      | @lexeme _ gap behind t _ blank text_ne comment_free tiles =>
          exact ⟨[], gap, behind, rfl, blank, text_ne, rfl, .rest free_nil, tiles⟩
  | cons y ys ih =>
      cases h with
      | @lexeme _ gap' rest t _ blank' text_ne' comment_free' tiles' =>
          obtain ⟨before, gap, behind, rfl, blank, text_ne, hspan, hbefore, hbehind⟩ := ih tiles'
          have hshift : ∀ text, offset + byteWidth (gap' ++ t.text.toList) + byteWidth text
              = offset + byteWidth (gap' ++ t.text.toList ++ text) := by
            intro text
            rw [Text.byteWidth_append _ text, Nat.add_assoc]
          rw [hshift, hshift] at hspan
          rw [hshift] at hbehind
          refine ⟨gap' ++ t.text.toList ++ before, gap, behind, ?_, blank, text_ne, ?_,
            .lexeme blank' text_ne' comment_free' hbefore, ?_⟩
          · simp only [List.append_assoc]
          · rw [hspan]
            simp only [List.append_assoc]
          · simpa only [List.append_assoc] using hbehind

/-- The text of a lexeme stands between the ends of its span. -/
theorem Tiles.between (h : Tiles 0 cs (ys ++ x :: zs)) :
    ∃ sp, x.span = some sp ∧ Between cs sp.start sp.stop x.token.text.toList ∧
      sp.start < sp.stop := by
  obtain ⟨before, gap, behind, hcs, -, text_ne, hspan, -⟩ := h.split
  rw [Nat.zero_add, Nat.zero_add, Text.byteWidth_append _ x.token.text.toList] at hspan
  have hbetween : Between cs (byteWidth (before ++ gap))
      (byteWidth (before ++ gap) + byteWidth x.token.text.toList) x.token.text.toList :=
    ⟨before ++ gap, behind, hcs, rfl, rfl⟩
  exact ⟨_, hspan, hbetween, hbetween.lt text_ne⟩

/-- What precedes the first lexeme is blank. -/
theorem Tiles.blank_before (h : Tiles 0 cs (x :: xs)) {sp : Span} (hsp : x.span = some sp) :
    ∃ gap, Between cs 0 sp.start gap ∧ gap.all Text.isBlank = true := by
  cases h with
  | @lexeme _ gap behind t _ blank text_ne comment_free tiles =>
      injection hsp with hsp
      subst hsp
      refine ⟨gap, ⟨[], t.text.toList ++ behind, ?_, rfl, rfl⟩, blank⟩
      rw [List.nil_append, List.append_assoc]

/-- What stands between a lexeme and the next one is blank. -/
theorem Tiles.blank_between (h : Tiles 0 cs (ys ++ x :: y :: zs)) {sp next : Span}
    (hsp : x.span = some sp) (hnext : y.span = some next) :
    ∃ gap, Between cs sp.stop next.start gap ∧ gap.all Text.isBlank = true := by
  obtain ⟨before, gap, behind, hcs, -, -, hspan, -, hbehind⟩ := h.split
  rw [hsp] at hspan
  injection hspan with hspan
  rw [hspan]
  cases hbehind with
  | @lexeme _ gap' behind' t _ blank' text_ne' comment_free' tiles' =>
      injection hnext with hnext
      rw [← hnext]
      refine ⟨gap', ⟨before ++ gap ++ x.token.text.toList, t.text.toList ++ behind', ?_, ?_, ?_⟩,
        blank'⟩
      · rw [hcs]
        simp only [List.append_assoc]
      · exact (Nat.zero_add _).symm
      · rw [Nat.zero_add]

/-- A text without a lexeme holds no literal. -/
theorem Tiles.free (h : Tiles offset cs []) : Free cs := by
  cases h with
  | rest free => exact free

/-- What follows the last lexeme holds no literal. -/
theorem Tiles.free_behind (h : Tiles 0 cs (ys ++ [x])) {sp : Span} (hsp : x.span = some sp) :
    ∃ rest, Between cs sp.stop (byteWidth cs) rest ∧ Free rest := by
  obtain ⟨before, gap, behind, hcs, -, -, hspan, -, hbehind⟩ := h.split
  rw [hsp] at hspan
  injection hspan with hspan
  rw [hspan]
  refine ⟨behind, ⟨before ++ gap ++ x.token.text.toList, [], ?_, ?_, ?_⟩, hbehind.free⟩
  · rw [List.append_nil, hcs]
  · exact (Nat.zero_add _).symm
  · rw [hcs, Text.byteWidth_append _ behind]

/-! ## §3. The spans of a source. -/

namespace Program

variable {p : Program} {sp : Span}

/-- A program, cut at one of its lexemes. -/
theorem lexemes_split (h : p.lexemes.toList[i]? = some x) :
    p.lexemes.toList = p.lexemes.toList.take i ++ x :: p.lexemes.toList.drop (i + 1) := by
  obtain ⟨hi, hx⟩ := List.getElem?_eq_some_iff.mp h
  rw [← hx, ← List.drop_eq_getElem_cons hi, List.take_append_drop]

/-- **A source, cut at one of its tokens.**  The lexemes before it tile what
precedes its blanks. -/
theorem ofSource_cut {source : String} (h : (ofSource source).token? i = some t) :
    ∃ ys x zs before gap behind, (ofSource source).lexemes.toList = ys ++ x :: zs ∧
      ys.length = i ∧ x.token = t ∧
      source.toList = before ++ gap ++ t.text.toList ++ behind ∧
      gap.all Text.isBlank = true ∧
      (ofSource source).span? i = some ⟨byteWidth (before ++ gap),
        byteWidth (before ++ gap ++ t.text.toList)⟩ ∧ Tiles 0 before ys := by
  obtain ⟨x, hx, rfl⟩ := Option.map_eq_some_iff.mp h
  have hspan? : (ofSource source).span? i = x.span := by rw [span?, hx, Option.bind_some]
  rw [← Array.getElem?_toList] at hx
  have htiles : Tiles 0 source.toList (ofSource source).lexemes.toList :=
    tiles_scan source.toList 0
  rw [lexemes_split hx] at htiles
  obtain ⟨before, gap, behind, hcs, blank, -, hspan, hbefore, -⟩ := htiles.split
  rw [Nat.zero_add, Nat.zero_add] at hspan
  exact ⟨_, x, _, before, gap, behind, lexemes_split hx,
    List.length_take_of_le (Nat.le_of_lt (List.getElem?_eq_some_iff.mp hx).1), rfl, hcs, blank,
    hspan?.trans hspan, hbefore⟩

theorem lexeme_of_lt (h : i < p.size) : ∃ x, p.lexemes.toList[i]? = some x := by
  have hi : i < p.lexemes.toList.length := h
  exact ⟨p.lexemes.toList[i], List.getElem?_eq_getElem hi⟩

theorem lexeme_of_span? (h : p.span? i = some sp) :
    ∃ x, p.lexemes.toList[i]? = some x ∧ x.span = some sp := by
  unfold span? at h
  rw [Option.bind_eq_some_iff] at h
  rw [Array.getElem?_toList]
  exact h

end Program

/-- **SPANS LOCATE EVERY TOKEN IN THE SOURCE.**  Every token of a source has a
span.  Its ends are boundaries of characters, one before the other and both in
the source, and the bytes between them are the text of the token.  Spans are
disjoint and in order; what precedes the first one and what stands between one
and the next is blank, and what follows the last one, or the whole source if
there is none, holds no literal. -/
theorem spans_locate_tokens (source : String) :
    (∀ i, i < (Program.ofSource source).size → ∃ t sp,
      (Program.ofSource source).token? i = some t ∧
      (Program.ofSource source).span? i = some sp ∧
      String.Pos.Raw.IsValid source ⟨sp.start⟩ ∧ String.Pos.Raw.IsValid source ⟨sp.stop⟩ ∧
      sp.start < sp.stop ∧ sp.stop ≤ source.utf8ByteSize ∧
      source.toUTF8.extract sp.start sp.stop = t.text.toUTF8) ∧
    (∀ i sp next, (Program.ofSource source).span? i = some sp →
      (Program.ofSource source).span? (i + 1) = some next →
      sp.stop ≤ next.start ∧
      ∃ gap, Between source.toList sp.stop next.start gap ∧ gap.all Text.isBlank = true) ∧
    (∀ first, (Program.ofSource source).span? 0 = some first →
      ∃ gap, Between source.toList 0 first.start gap ∧ gap.all Text.isBlank = true) ∧
    (∀ i last, i + 1 = (Program.ofSource source).size →
      (Program.ofSource source).span? i = some last →
      ∃ rest, Between source.toList last.stop source.utf8ByteSize rest ∧ Free rest) ∧
    ((Program.ofSource source).size = 0 → Free source.toList) := by
  have htiles : Tiles 0 source.toList (Program.ofSource source).lexemes.toList :=
    tiles_scan source.toList 0
  refine ⟨?_, ?_, ?_, ?_, ?_⟩
  · intro i hi
    obtain ⟨x, hx⟩ := Program.lexeme_of_lt hi
    rw [Program.lexemes_split hx] at htiles
    obtain ⟨sp, hspan, hbetween, hlt⟩ := htiles.between
    rw [Array.getElem?_toList] at hx
    refine ⟨x.token, sp, ?_, ?_, hbetween.isValid_start, hbetween.isValid_stop, hlt, ?_, ?_⟩
    · rw [Program.token?, hx]
      rfl
    · rw [Program.span?, hx]
      exact hspan
    · rw [← Text.byteWidth_toList]
      exact hbetween.stop_le
    · rw [hbetween.extract_toUTF8, String.ofList_toList]
  · intro i sp next hsp hnext
    obtain ⟨x, hx, hspan⟩ := Program.lexeme_of_span? hsp
    obtain ⟨y, hy, hspan'⟩ := Program.lexeme_of_span? hnext
    have hbehind : (Program.ofSource source).lexemes.toList.drop (i + 1)
        = y :: (Program.ofSource source).lexemes.toList.drop (i + 1 + 1) := by
      obtain ⟨hi, rfl⟩ := List.getElem?_eq_some_iff.mp hy
      exact List.drop_eq_getElem_cons hi
    rw [Program.lexemes_split hx, hbehind] at htiles
    obtain ⟨gap, hgap, hblank⟩ := htiles.blank_between hspan hspan'
    exact ⟨hgap.le, gap, hgap, hblank⟩
  · intro first hfirst
    obtain ⟨x, hx, hspan⟩ := Program.lexeme_of_span? hfirst
    rw [Program.lexemes_split hx] at htiles
    exact htiles.blank_before hspan
  · intro i last hi hlast
    obtain ⟨x, hx, hspan⟩ := Program.lexeme_of_span? hlast
    have hnone : (Program.ofSource source).lexemes.toList.drop (i + 1) = [] := by
      rw [List.drop_eq_nil_iff, Array.length_toList]
      exact Nat.le_of_eq hi.symm
    rw [Program.lexemes_split hx, hnone] at htiles
    rw [← Text.byteWidth_toList]
    exact htiles.free_behind hspan
  · intro hsize
    have hnil : (Program.ofSource source).lexemes.toList = [] :=
      List.eq_nil_of_length_eq_zero hsize
    rw [hnil] at htiles
    exact htiles.free

/-- A comment with wide letters between wide blanks, a literal right behind
another one, and text that is never finished. -/
def wideBlanks : String := "\u3000héllo wörld\u2003(Buffalo buff"

theorem spans_locate_tokens_wideBlanks :
    (Program.ofSource wideBlanks).size = 3 ∧
    (Program.ofSource wideBlanks).span? 0 = some ⟨3, 16⟩ ∧
    wideBlanks.toUTF8.extract 3 16 = "héllo wörld".toUTF8 ∧
    (∃ gap, Between wideBlanks.toList 16 19 gap ∧ gap.all Text.isBlank = true) ∧
    (∃ rest, Between wideBlanks.toList 27 wideBlanks.utf8ByteSize rest ∧ Free rest) := by
  obtain ⟨hlocated, hbetween, -, hlast, -⟩ := spans_locate_tokens wideBlanks
  have hsize : (Program.ofSource wideBlanks).size = 3 := by decide +kernel
  have htoken : (Program.ofSource wideBlanks).token? 0 = some (.comment "héllo wörld") := by
    decide +kernel
  have hspan : (Program.ofSource wideBlanks).span? 0 = some ⟨3, 16⟩ := by decide +kernel
  obtain ⟨t, sp, ht, hsp, -, -, -, -, hbytes⟩ := hlocated 0 (by rw [hsize]; decide)
  rw [htoken] at ht
  rw [hspan] at hsp
  obtain rfl := Option.some.inj ht
  obtain rfl := Option.some.inj hsp
  refine ⟨hsize, hspan, hbytes, ?_, ?_⟩
  · exact (hbetween 0 ⟨3, 16⟩ ⟨19, 20⟩ hspan (by decide +kernel)).2
  · exact hlast 2 ⟨20, 27⟩ hsize.symm (by decide +kernel)

end Prairie
