/-
  Prairie.Proofs.Source.Resuming
  ──────────────────────────────
  **A SCAN MAY STOP ANYWHERE AND GO ON.**

  What the scanner holds is what is LEFT of the text behind its last literal.
  What it has READ before that is settled, whatever comes:

      text         read ................ left
      scan         lexemes of the text   none

      scan (read ++ more)  =  scan text  ++  scan more, further on by |read|

  So a cut inside a word, in a comment or among blanks does no harm: the scan
  goes on as if it began anew in front of the left text.  Where it begins only
  moves the spans (`scan_shift`), and if the characters come with offsets that
  make no sense, the spans make no sense, but the tokens do.
-/
import Prairie.Proofs.Source.Slices
import Prairie.Proofs.Text.Between

namespace Prairie

open Text (byteWidth)

variable {g cs rest : List Char} {l : Literal}

namespace Scanner

/-! ## §1. What is read and what is left. -/

/-- What the scanner holds when it has been fed the text. -/
def left (cs : List Char) : List Char := (feed {} 0 cs).held.reverse

/-- It does not matter where the text began and what was found before. -/
theorem held_feed (cs : List Char) (start offset : Nat) (found : Array Lexeme) :
    ((Scanner.mk [] start found).feed offset cs).held = (left cs).reverse := by
  unfold left
  rw [List.reverse_reverse]
  induction cs using piece_induction generalizing start offset found with
  | free cs hf =>
      rw [(feed_of_free (s := ⟨[], start, found⟩) offset hf).1,
        (feed_of_free (s := {}) 0 hf).1]
  | piece g l rest hg ih =>
      rw [feed_append, feed_piece hg, ih, feed_append, feed_piece hg]
      exact (ih _ _ _).symm

theorem left_free (hf : Free cs) : left cs = cs := by
  unfold left
  rw [(feed_of_free (s := {}) 0 hf).1, List.append_nil, List.reverse_reverse]

theorem left_piece (hg : Free g) : left (g ++ l.letters ++ rest) = left rest := by
  rw [left, feed_append, feed_piece hg, held_feed, List.reverse_reverse]

/-- **What is left holds no literal.** -/
theorem free_left (cs : List Char) : Free (left cs) := by
  induction cs using piece_induction with
  | free cs hf =>
      rw [left_free hf]
      exact hf
  | piece g l rest hg ih =>
      rw [left_piece hg]
      exact ih

/-- **What is left stands behind the last literal.** -/
theorem left_of_last {i : Nat} (hl : l.OccursAt cs i)
    (hlast : ∀ (m : Literal) j, m.OccursAt cs j → j ≤ i) :
    left cs = cs.drop (i + l.letters.length) := by
  induction cs using piece_induction generalizing i with
  | free cs hf => exact absurd hl (free_iff_forall_not_occursAt.mp hf l i)
  | piece g k rest hg ih =>
      rw [left_piece hg]
      rcases (occursAt_piece_iff hg).mp hl with ⟨rfl, rfl⟩ | ⟨j, rfl, hj⟩
      · -- The last literal is that of the piece, so the rest is free.
        have hfree : Free rest := by
          refine free_iff_forall_not_occursAt.mpr fun m n hm => ?_
          have hle := hlast m _ ((occursAt_piece_iff hg).mpr (.inr ⟨n, rfl, hm⟩))
          have hpos := l.length_letters_pos
          omega
        rw [left_free hfree, ← List.length_append, List.drop_left]
      · have hrest := ih hj fun m n hm => by
          have hle := hlast m _ ((occursAt_piece_iff hg).mpr (.inr ⟨n, rfl, hm⟩))
          omega
        rw [hrest, Nat.add_assoc, ← List.length_append, List.drop_length_add_append]

/-- **What is read is settled.**  A text is what is read of it and what is left,
and whatever stands behind what is read is scanned as if it stood alone. -/
theorem exists_read (cs : List Char) :
    ∃ read, cs = read ++ left cs ∧ ∀ more,
      left (read ++ more) = left more ∧
      ∀ offset, scan offset (read ++ more)
        = scan offset cs ++ scan (offset + byteWidth read) more := by
  induction cs using piece_induction with
  | free cs hf =>
      refine ⟨[], (left_free hf).symm, fun more => ⟨rfl, fun offset => ?_⟩⟩
      rw [scan_free hf]
      rfl
  | piece g l rest hg ih =>
      obtain ⟨read, hread, hmore⟩ := ih
      refine ⟨g ++ l.letters ++ read, ?_, fun more => ⟨?_, fun offset => ?_⟩⟩
      · rw [left_piece hg, List.append_assoc _ read, ← hread]
      · rw [List.append_assoc _ read, left_piece hg, (hmore more).1]
      · rw [List.append_assoc _ read, scan_piece hg, scan_piece hg, (hmore more).2,
          List.append_assoc, Text.byteWidth_append _ read, Nat.add_assoc]

/-! ## §2. Offsets that are not those of the source. -/

/-- Feed the scanner characters with any offsets. -/
def pushes (s : Scanner) (cs : List (Nat × Char)) : Scanner :=
  cs.foldl (fun s (offset, c) => s.push offset c) s

/-- Two scanners hold the same text and have found the same tokens. -/
structure Agree (s t : Scanner) : Prop where
  held_eq : s.held = t.held
  tokens_eq : s.program.tokens = t.program.tokens

/-- The span of a lexeme is as long as the text of its token. -/
def Fits (x : Lexeme) : Prop :=
  ∃ start, x.span = some ⟨start, start + x.token.text.utf8ByteSize⟩

variable {s t : Scanner} {c : Char}

/-- **Offsets make no difference to tokens**, not in one character … -/
theorem Agree.push (h : Agree s t) (offset offset' : Nat) (c : Char) :
    Agree (s.push offset c) (t.push offset' c) := by
  have hheld : ending? (c :: t.held) = ending? (c :: s.held) := by rw [h.held_eq]
  cases he : ending? (c :: s.held) with
  | none =>
      rw [push_of_none offset he, push_of_none offset' (hheld.trans he)]
      exact ⟨congrArg (List.cons c) h.held_eq, h.tokens_eq⟩
  | some l =>
      rw [push_of_some offset he, push_of_some offset' (hheld.trans he), h.held_eq]
      refine ⟨rfl, ?_⟩
      have htokens : s.found.toList.map Lexeme.token = t.found.toList.map Lexeme.token :=
        h.tokens_eq
      unfold program Program.tokens
      simp only [Array.toList_appendList, List.map_append, htokens, tokens_pieceLexemes]

/-- … and not in any number of them. -/
theorem Agree.pushes (cs : List (Nat × Char)) (offset : Nat) :
    ∀ {s t : Scanner}, Agree s t → Agree (s.pushes cs) (t.feed offset (cs.map Prod.snd)) := by
  induction cs generalizing offset with
  | nil =>
      intro s t h
      exact h
  | cons x cs ih =>
      intro s t h
      exact ih (offset + x.2.utf8Size) (h.push x.1 offset x.2)

theorem fits_pieceLexemes (g : List Char) (l : Literal) (start : Nat) :
    ∀ x ∈ pieceLexemes g l start, Fits x := by
  intro x hx
  rcases List.mem_append.mp hx with hcomment | hliteral
  · rw [Option.mem_toList] at hcomment
    by_cases hblank : g.all Text.isBlank = true
    · rw [commentOf?_of_blank hblank] at hcomment
      cases hcomment
    · rw [commentOf?_of_text hblank] at hcomment
      injection hcomment with hcomment
      rw [← hcomment]
      refine ⟨start + byteWidth (g.takeWhile Text.isBlank), ?_⟩
      show some _ = some (Span.mk _ (_ + (String.ofList (Text.trim g)).utf8ByteSize))
      rw [← Text.byteWidth_toList, String.toList_ofList]
  · rw [List.mem_singleton] at hliteral
    exact ⟨_, by rw [hliteral]; rfl⟩

/-- **However odd the offsets, a span is as long as its text.** -/
theorem fits_pushes (cs : List (Nat × Char)) :
    ∀ {s : Scanner}, (∀ x ∈ s.found.toList, Fits x) → ∀ x ∈ (s.pushes cs).found.toList, Fits x := by
  induction cs with
  | nil =>
      intro s h
      exact h
  | cons y cs ih =>
      intro s h
      refine ih (s := s.push y.1 y.2) ?_
      cases he : ending? (y.2 :: s.held) with
      | none =>
          rw [push_of_none y.1 he]
          exact h
      | some l =>
          rw [push_of_some y.1 he]
          intro x hx
          rw [Array.toList_appendList] at hx
          rcases List.mem_append.mp hx with hold | hnew
          · exact h x hold
          · exact fits_pieceLexemes _ l _ x hnew

/-! ## §3. Sources in two parts. -/

/-- The scanner that has been fed a source. -/
def fed (source : String) : Scanner := feed {} 0 source.toList

end Scanner

/-- **A SCAN MAY STOP ANYWHERE AND GO ON.**  Feed a scanner the text `a` and
then the text `b`, at the offset where `a` is over.

After `a` the held text is the end of `a` and holds no literal: it is all of `a`
if none occurs there, and what stands behind the last one otherwise.  After `b`
the program is that of `a`, as it was, and then that of the held text and `b`
alone, further on by the bytes of `a` that were not held; and what is held is
what those two leave.

And whatever offsets the characters come with, the tokens and the held text are
the same, and each span is as long as the text of its token. -/
theorem scan_resumes (a b : String) (cs : List (Nat × Char)) :
    (Free (Scanner.fed a).heldText.toList ∧
      (Scanner.fed a).heldText.toList <:+ a.toList ∧
      (Free a.toList → (Scanner.fed a).heldText = a) ∧
      ∀ (l : Literal) i, l.OccursAt a.toList i →
        (∀ (m : Literal) j, m.OccursAt a.toList j → j ≤ i) →
        (Scanner.fed a).heldText.toList = a.toList.drop (i + l.letters.length)) ∧
    (((Scanner.fed a).feed a.utf8ByteSize b.toList).program.lexemes.toList
        = (Program.ofSource a).lexemes.toList
          ++ (Program.ofSource ((Scanner.fed a).heldText ++ b)).lexemes.toList.map
            (Lexeme.shift (a.utf8ByteSize - (Scanner.fed a).heldText.utf8ByteSize)) ∧
      ((Scanner.fed a).feed a.utf8ByteSize b.toList).heldText
        = (Scanner.fed ((Scanner.fed a).heldText ++ b)).heldText) ∧
    (Scanner.pushes {} cs).program.tokens
      = (Scanner.feed {} 0 (cs.map Prod.snd)).program.tokens ∧
    (Scanner.pushes {} cs).heldText = (Scanner.feed {} 0 (cs.map Prod.snd)).heldText ∧
    ∀ x ∈ (Scanner.pushes {} cs).program.lexemes.toList, Scanner.Fits x := by
  have hheld : (Scanner.fed a).heldText.toList = Scanner.left a.toList := String.toList_ofList
  obtain ⟨read, hread, hmore⟩ := Scanner.exists_read a.toList
  refine ⟨?_, ?_, ?_⟩
  · rw [hheld]
    refine ⟨Scanner.free_left _, ⟨read, hread.symm⟩, ?_, fun l i => Scanner.left_of_last⟩
    intro hf
    rw [← String.toList_inj, hheld, Scanner.left_free hf]
  · -- The two texts are fed as one, and what was read of the first one is settled.
    have hfeed : (Scanner.fed a).feed a.utf8ByteSize b.toList
        = Scanner.feed {} 0 (read ++ (Scanner.left a.toList ++ b.toList)) := by
      rw [← List.append_assoc, ← hread, Scanner.feed_append, Text.byteWidth_toList, Nat.zero_add]
      rfl
    have hsettled : a.utf8ByteSize - (Scanner.fed a).heldText.utf8ByteSize = byteWidth read := by
      have hwidth := congrArg byteWidth hread
      rw [Text.byteWidth_append, Text.byteWidth_toList, ← hheld, Text.byteWidth_toList] at hwidth
      omega
    obtain ⟨hleft, hscan⟩ := hmore (Scanner.left a.toList ++ b.toList)
    rw [hfeed, hsettled]
    constructor
    · show Scanner.scan 0 _ = _
      rw [hscan, Nat.add_comm, Scanner.scan_shift, Program.lexemes_ofSource,
        Program.lexemes_ofSource, String.toList_append, hheld]
    · show String.ofList (Scanner.left _) = String.ofList (Scanner.left _)
      rw [hleft, String.toList_append, hheld]
  · have hagree := Scanner.Agree.pushes cs 0 (s := {}) (t := {}) ⟨rfl, rfl⟩
    refine ⟨hagree.tokens_eq, ?_, Scanner.fits_pushes cs fun x hx => by cases hx⟩
    unfold Scanner.heldText
    rw [hagree.held_eq]

/-- A comment, a wide letter, and half a word at the end. -/
def cutInWord : String := "é( ab buff"

theorem scan_resumes_cutInWord :
    Literal.loopBegin.OccursAt cutInWord.toList 1 ∧
    (∀ (m : Literal) j, m.OccursAt cutInWord.toList j → j ≤ 1) ∧
    (Scanner.fed cutInWord).heldText = " ab buff" ∧
    ((Scanner.fed cutInWord).feed 11 "alo".toList).program.lexemes.toList
      = (Program.ofSource cutInWord).lexemes.toList
        ++ (Program.ofSource " ab buffalo").lexemes.toList.map (Lexeme.shift 3) := by
  obtain ⟨⟨-, -, -, hlast⟩, ⟨hprogram, -⟩, -⟩ := scan_resumes cutInWord "alo" []
  have hall : occurrences 0 cutInWord.toList = [(1, .loopBegin)] := by decide
  have honly : ∀ (m : Literal) j, m.OccursAt cutInWord.toList j → j = 1 := by
    intro m j hm
    have hmem : (j, m) ∈ occurrences 0 cutInWord.toList :=
      mem_occurrences_iff.mpr ⟨j, (Nat.zero_add j).symm, hm⟩
    rw [hall, List.mem_singleton] at hmem
    exact congrArg Prod.fst hmem
  have hocc : Literal.loopBegin.OccursAt cutInWord.toList 1 := by
    obtain ⟨k, hk, hocc⟩ := mem_occurrences_iff.mp (hall ▸ List.mem_cons_self)
    rw [hk, Nat.zero_add]
    exact hocc
  have hle : ∀ (m : Literal) j, m.OccursAt cutInWord.toList j → j ≤ 1 :=
    fun m j hm => Nat.le_of_eq (honly m j hm)
  have hheld : (Scanner.fed cutInWord).heldText = " ab buff" := by
    rw [← String.toList_inj, hlast .loopBegin 1 hocc hle]
    decide
  rw [hheld] at hprogram
  exact ⟨hocc, hle, hheld, hprogram⟩

end Prairie
