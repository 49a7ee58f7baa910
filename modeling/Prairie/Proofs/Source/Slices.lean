/-
  Prairie.Proofs.Source.Slices
  ────────────────────────────
  **A SOURCE IS CUT WHERE ITS LITERALS STAND.**

  `occurrences` looks at every index of a text by itself and lists what
  literal stands there; it knows nothing of gaps.  `slices` cuts the text at
  a list of occurrences:

      slices cs start ((i, l) :: occ)
        = tokens of the gap cs[start..i], l, slices cs (i + length of l) occ

  The scanner reads the slices of the text at ALL its occurrences
  (`tokens_ofSource_eq_slices`), and each literal keeps its place.
-/
import Prairie.Proofs.Source.Scan

namespace Prairie

/-! ## §1. All occurrences. -/

/-- Every occurrence of a literal in a text, with its index; the text begins
at index `i`. -/
def occurrences (i : Nat) : List Char → List (Nat × Literal)
  | [] => []
  | c :: cs =>
      (Literal.all.filter fun l => l.letters.isPrefixOf (c :: cs)).map (i, ·)
        ++ occurrences (i + 1) cs

variable {i : Nat} {g rest cs xs ys : List Char} {l : Literal}

theorem mem_occurrences_iff {j : Nat} :
    (j, l) ∈ occurrences i cs ↔ ∃ k, j = i + k ∧ l.OccursAt cs k := by
  induction cs generalizing i with
  | nil =>
      constructor
      · intro h
        cases h
      · rintro ⟨k, -, hk⟩
        rw [Literal.OccursAt, List.drop_nil, List.prefix_nil] at hk
        exact absurd hk l.letters_ne_nil
  | cons c cs ih =>
      have hfront : (j, l) ∈ (Literal.all.filter fun m => m.letters.isPrefixOf (c :: cs)).map
          (i, ·) ↔ j = i ∧ l.letters <+: c :: cs := by
        rw [List.mem_map]
        constructor
        · rintro ⟨m, hm, hml⟩
          obtain ⟨rfl, rfl⟩ := Prod.mk.inj hml
          exact ⟨rfl, List.isPrefixOf_iff_prefix.mp (List.mem_filter.mp hm).2⟩
        · rintro ⟨rfl, hp⟩
          refine ⟨l, List.mem_filter.mpr ⟨l.mem_all, ?_⟩, rfl⟩
          exact List.isPrefixOf_iff_prefix.mpr hp
      rw [occurrences, List.mem_append, hfront, ih]
      constructor
      · rintro (⟨rfl, hp⟩ | ⟨k, rfl, hk⟩)
        · exact ⟨0, rfl, hp⟩
        · exact ⟨k + 1, by omega, hk⟩
      · rintro ⟨k, rfl, hk⟩
        cases k with
        | zero => exact .inl ⟨rfl, hk⟩
        | succ k => exact .inr ⟨k, by omega, hk⟩

/-- A front where no literal begins has no occurrence. -/
theorem occurrences_append_of_not_occursAt
    (h : ∀ (l : Literal) k, k < xs.length → ¬ l.OccursAt (xs ++ ys) k) :
    occurrences i (xs ++ ys) = occurrences (i + xs.length) ys := by
  induction xs generalizing i with
  | nil => rfl
  | cons x xs ih =>
      have hnone : (Literal.all.filter fun l => l.letters.isPrefixOf (x :: (xs ++ ys))) = [] := by
        rw [List.filter_eq_nil_iff]
        intro l _ hl
        exact h l 0 (Nat.succ_pos _) (List.isPrefixOf_iff_prefix.mp hl)
      rw [List.cons_append, occurrences, hnone, List.map_nil, List.nil_append,
        ih fun l k hk => h l (k + 1) (Nat.succ_lt_succ hk), List.length_cons]
      congr 1
      omega

theorem occurrences_free (hf : Free cs) : occurrences i cs = [] := by
  refine List.eq_nil_iff_forall_not_mem.mpr fun ⟨j, l⟩ hmem => ?_
  obtain ⟨k, -, hk⟩ := mem_occurrences_iff.mp hmem
  exact free_iff_forall_not_occursAt.mp hf l k hk

/-- Of the literals, only `l` begins where `l` stands. -/
theorem filter_isPrefixOf_letters (l : Literal) (rest : List Char) :
    (Literal.all.filter fun m => m.letters.isPrefixOf (l.letters ++ rest)) = [l] := by
  have hiff : ∀ m ∈ Literal.all,
      m.letters.isPrefixOf (l.letters ++ rest) = decide (m = l) := by
    intro m _
    rw [Bool.eq_iff_iff, List.isPrefixOf_iff_prefix, decide_eq_true_eq,
      prefix_letters_append_iff]
  rw [List.filter_congr hiff]
  have key : ∀ l ∈ Literal.all, (Literal.all.filter fun m => decide (m = l)) = [l] := by
    decide
  exact key l l.mem_all

/-- The occurrences in a piece and what follows it. -/
theorem occurrences_piece (hg : Free g) :
    occurrences i (g ++ l.letters ++ rest)
      = (i + g.length, l) :: occurrences (i + (g ++ l.letters).length) rest := by
  -- None begins in the gap, …
  rw [List.append_assoc, occurrences_append_of_not_occursAt]
  · obtain ⟨c, w, hw⟩ := List.exists_cons_of_ne_nil l.letters_ne_nil
    have hfront := filter_isPrefixOf_letters l rest
    -- … one at the literal, and none inside the literal.
    rw [hw, List.cons_append] at hfront
    rw [hw, List.cons_append, occurrences, hfront, occurrences_append_of_not_occursAt]
    · simp only [List.map_cons, List.map_nil, List.singleton_append, List.length_append,
        List.length_cons]
      congr 2
      omega
    · intro m k hk hm
      have hlen : l.letters.length = w.length + 1 := by rw [hw, List.length_cons]
      have hin : m.letters <+: l.letters.drop (k + 1) ++ rest := by
        rw [hw, List.drop_succ_cons, ← List.drop_append_of_le_length (by omega)]
        exact hm
      exact not_prefix_drop (Nat.succ_pos k) (by omega) hin
  · intro m k hk hm
    rw [← List.append_assoc] at hm
    rcases (occursAt_piece_iff hg).mp hm with ⟨rfl, -⟩ | ⟨j, rfl, -⟩
    · omega
    · omega

/-- Each occurrence is over before the next one begins. -/
theorem pairwise_occurrences (cs : List Char) (i : Nat) :
    (occurrences i cs).Pairwise fun x y => x.1 + x.2.letters.length ≤ y.1 := by
  induction cs using piece_induction generalizing i with
  | free cs hf =>
      rw [occurrences_free hf]
      exact List.Pairwise.nil
  | piece g l rest hg ih =>
      rw [occurrences_piece hg, List.pairwise_cons]
      refine ⟨fun ⟨j, m⟩ hmem => ?_, ih _⟩
      obtain ⟨k, rfl, -⟩ := mem_occurrences_iff.mp hmem
      rw [List.length_append]
      show i + g.length + l.letters.length ≤ _
      omega

/-! ## §2. The slices of a text. -/

/-- The text cut at the occurrences, from index `start` on.  What is behind
the last one is left out. -/
def slices (cs : List Char) (start : Nat) : List (Nat × Literal) → List Token
  | [] => []
  | (i, l) :: occ =>
      Scanner.gapTokens (cs.extract start i) ++ .literal l ::
        slices cs (i + l.letters.length) occ

/-- A literal and the bytes that it covers; nothing for a comment. -/
def Lexeme.place? (x : Lexeme) : Option (Literal × Option Span) :=
  x.token.literal?.map (·, x.span)

/-- The bytes that an occurrence covers. -/
def placeOf (cs : List Char) (x : Nat × Literal) : Literal × Option Span :=
  (x.2, some ⟨Text.byteWidth (cs.take x.1),
    Text.byteWidth (cs.take (x.1 + x.2.letters.length))⟩)

/-- Behind any text `pre` that was read before, the scanner finds the slices. -/
theorem tokens_scan_eq_slices (pre cs : List Char) :
    (Scanner.scan (Text.byteWidth pre) cs).map Lexeme.token
      = slices (pre ++ cs) pre.length (occurrences pre.length cs) := by
  induction cs using piece_induction generalizing pre with
  | free cs hf =>
      rw [Scanner.scan_free hf, occurrences_free hf]
      rfl
  | piece g l rest hg ih =>
      have hgap : (pre ++ (g ++ l.letters ++ rest)).extract pre.length (pre.length + g.length)
          = g := by
        rw [List.extract_eq_take_drop, List.drop_left, Nat.add_sub_cancel_left,
          List.append_assoc, List.take_left]
      -- The piece is what was read before the rest.
      have hrest := ih (pre ++ (g ++ l.letters))
      rw [List.append_assoc, List.length_append, Text.byteWidth_append] at hrest
      rw [Scanner.tokens_scan_piece hg, hrest, occurrences_piece hg, slices, hgap,
        List.length_append, Nat.add_assoc]

/-- The only place in the lexemes of a piece is that of its literal. -/
theorem places_pieceLexemes (g : List Char) (l : Literal) (start : Nat) :
    (Scanner.pieceLexemes g l start).filterMap Lexeme.place?
      = [(l, some ⟨start + Text.byteWidth g,
          start + Text.byteWidth g + Text.byteWidth l.letters⟩)] := by
  have hcomment : (Scanner.commentOf? g start).toList.filterMap Lexeme.place? = [] := by
    by_cases hblank : g.all Text.isBlank = true
    · rw [Scanner.commentOf?_of_blank hblank]
      rfl
    · rw [Scanner.commentOf?_of_text hblank]
      rfl
  rw [Scanner.pieceLexemes, List.filterMap_append, hcomment, List.nil_append]
  simp [Lexeme.place?, Token.literal?, Scanner.lexemeOf, utf8ByteSize_spelling]

theorem places_scan (pre cs : List Char) :
    (Scanner.scan (Text.byteWidth pre) cs).filterMap Lexeme.place?
      = (occurrences pre.length cs).map (placeOf (pre ++ cs)) := by
  induction cs using piece_induction generalizing pre with
  | free cs hf =>
      rw [Scanner.scan_free hf, occurrences_free hf]
      rfl
  | piece g l rest hg ih =>
      have hrest := ih (pre ++ (g ++ l.letters))
      rw [List.append_assoc, List.length_append, Text.byteWidth_append] at hrest
      have hstart : (pre ++ (g ++ l.letters ++ rest)).take (pre.length + g.length) = pre ++ g := by
        rw [List.append_assoc g, ← List.append_assoc pre, ← List.length_append, List.take_left]
      have hstop : (pre ++ (g ++ l.letters ++ rest)).take
          (pre.length + g.length + l.letters.length) = pre ++ (g ++ l.letters) := by
        rw [← List.append_assoc pre, Nat.add_assoc, ← List.length_append,
          ← List.length_append, List.take_left]
      rw [Scanner.scan_piece hg, List.filterMap_append, places_pieceLexemes, hrest,
        occurrences_piece hg, List.map_cons, placeOf, hstart, hstop]
      simp [Nat.add_assoc]

/-! ## §3. The tokens of a source. -/

/-- **THE TOKENS OF A SOURCE ARE ITS SLICES.**

The listed occurrences are exactly the places where a literal stands in the
source, and none overlaps another.  The tokens are the slices at all of them:
each literal behind the comment of the gap before it, which is there when the
gap is more than blanks, and nothing behind the last one.  Each literal covers
the bytes of its occurrence. -/
theorem tokens_ofSource_eq_slices (source : String) :
    (∀ i l, (i, l) ∈ occurrences 0 source.toList ↔ Literal.OccursAt l source.toList i) ∧
    (occurrences 0 source.toList).Pairwise (fun x y => x.1 + x.2.letters.length ≤ y.1) ∧
    (Program.ofSource source).tokens
      = slices source.toList 0 (occurrences 0 source.toList) ∧
    (Program.ofSource source).lexemes.toList.filterMap Lexeme.place?
      = (occurrences 0 source.toList).map (placeOf source.toList) := by
  refine ⟨fun i l => ?_, pairwise_occurrences _ 0, ?_, ?_⟩
  · rw [mem_occurrences_iff]
    constructor
    · rintro ⟨k, rfl, hk⟩
      rw [Nat.zero_add]
      exact hk
    · intro hk
      exact ⟨i, (Nat.zero_add i).symm, hk⟩
  · rw [Program.tokens, Program.lexemes_ofSource]
    exact tokens_scan_eq_slices [] source.toList
  · rw [Program.lexemes_ofSource]
    exact places_scan [] source.toList

example : (Program.ofSource " say (buffalo Buffalo.) it").tokens
    = [.comment "say", .literal .loopBegin, .literal (.word .lower), .literal (.word .upper),
      .literal .output, .literal .loopEnd] := by decide +kernel

end Prairie
