/-
  Prairie.Proofs.Source.Occurrence
  ────────────────────────────────
  **WHERE LITERALS STAND IN A TEXT.**

  A literal OCCURS at an index when its letters stand there, whatever is
  around them.  Occurrences of literals never overlap, and the reason is one
  fact about the five spellings: the first letter of a literal is in no
  literal but at its front (`head_not_mem_tail`).  From it:

      m occurs in  g ++ l ++ rest  (g free of literals)
        ↔  m is that l,  or m occurs in rest              (`occursAt_piece_iff`)

  So a text is read piece by piece, a gap and a literal at a time, and every
  text is a row of pieces and a free rest (`piece_induction`).
-/
import Prairie.Source.Token

namespace Prairie

/-! ## §1. The letters of the literals. -/

namespace Literal

def letters (l : Literal) : List Char := l.spelling.toList

theorem letters_ne_nil (l : Literal) : l.letters ≠ [] := by
  have key : ∀ l ∈ all, l.letters ≠ [] := by decide
  exact key l (mem_all l)

theorem length_letters_pos (l : Literal) : 0 < l.letters.length :=
  List.length_pos_iff.mpr l.letters_ne_nil

/-- **The first letter of a literal stands in no literal but at its front.** -/
theorem head_not_mem_tail (m l : Literal) : ∀ c ∈ m.letters.head?, c ∉ l.letters.tail := by
  have key : ∀ m ∈ all, ∀ l ∈ all,
      m.letters.head?.all (fun c => decide (c ∉ l.letters.tail)) = true := by decide
  intro c hc
  have hall := key m (mem_all m) l (mem_all l)
  rw [hc, Option.all_some, decide_eq_true_eq] at hall
  exact hall

theorem eq_of_prefix {m l : Literal} (h : m.letters <+: l.letters) : m = l := by
  have key : ∀ m ∈ all, ∀ l ∈ all, m.letters <+: l.letters → m = l := by decide
  exact key m (mem_all m) l (mem_all l) h

theorem eq_of_suffix {m l : Literal} (h : m.letters <:+ l.letters) : m = l := by
  have key : ∀ m ∈ all, ∀ l ∈ all, m.letters <:+ l.letters → m = l := by decide
  exact key m (mem_all m) l (mem_all l) h

/-- The literal stands in the text at index `i`. -/
def OccursAt (l : Literal) (cs : List Char) (i : Nat) : Prop := l.letters <+: cs.drop i

end Literal

/-- No literal stands anywhere in the text. -/
def Free (cs : List Char) : Prop := ∀ l : Literal, ¬ l.letters <:+: cs

/-! ## §2. Literals do not overlap. -/

section

variable {m l : Literal} {g h rest cs : List Char} {i : Nat}

theorem free_nil : Free [] := by
  intro l h
  exact l.letters_ne_nil (List.eq_nil_of_infix_nil h)

theorem Free.of_infix (hf : Free cs) (h : g <:+: cs) : Free g :=
  fun l hl => hf l (hl.trans h)

/-- A free text is one in which no literal occurs. -/
theorem free_iff_forall_not_occursAt : Free cs ↔ ∀ (l : Literal) i, ¬ l.OccursAt cs i := by
  constructor
  · intro hf l i hl
    exact hf l (hl.isInfix.trans (List.drop_suffix i cs).isInfix)
  · intro h l ⟨s, t, hst⟩
    refine h l s.length ?_
    rw [Literal.OccursAt, ← hst, List.append_assoc, List.drop_left]
    exact List.prefix_append _ _

/-- A literal that begins before another one is over before it begins. -/
theorem prefix_of_prefix_append (hne : h ≠ [])
    (hp : m.letters <+: h ++ (l.letters ++ rest)) : m.letters <+: h := by
  rcases List.prefix_or_prefix_of_prefix hp (List.prefix_append h _) with hm | ⟨t, ht⟩
  · exact hm
  cases t with
  | nil => exact ⟨[], by rw [← ht]; simp⟩
  | cons c t =>
      -- Then the first letter `c` of `l` would stand inside `m`.
      exfalso
      rw [← ht, List.prefix_append_right_inj] at hp
      obtain ⟨d, w, hw⟩ := List.exists_cons_of_ne_nil l.letters_ne_nil
      rw [hw, List.cons_append, List.cons_prefix_cons] at hp
      refine l.head_not_mem_tail m c (by rw [hw, hp.1]; rfl) ?_
      obtain ⟨a, h', rfl⟩ := List.exists_cons_of_ne_nil hne
      rw [← ht, List.cons_append, List.tail_cons]
      exact List.mem_append_right _ List.mem_cons_self

/-- No literal begins inside another one. -/
theorem not_prefix_drop (hi : 0 < i) (hlt : i < l.letters.length) :
    ¬ m.letters <+: l.letters.drop i ++ rest := by
  intro hp
  obtain ⟨c, w, hw⟩ := List.exists_cons_of_ne_nil m.letters_ne_nil
  obtain ⟨d, v, hv⟩ : ∃ d v, l.letters.drop i = d :: v :=
    List.exists_cons_of_ne_nil (by rw [ne_eq, List.drop_eq_nil_iff]; omega)
  rw [hw, hv, List.cons_append, List.cons_prefix_cons] at hp
  refine m.head_not_mem_tail l c (by rw [hw]; rfl) ?_
  rw [show i = i - 1 + 1 by omega, ← List.drop_tail] at hv
  have hmem : c ∈ l.letters.tail.drop (i - 1) := by
    rw [hv, hp.1]
    exact List.mem_cons_self
  exact List.mem_of_mem_drop hmem

/-- Where a literal stands, no other one begins. -/
theorem prefix_letters_append_iff : m.letters <+: l.letters ++ rest ↔ m = l := by
  constructor
  · intro hp
    rcases List.prefix_or_prefix_of_prefix hp (List.prefix_append _ _) with h1 | h2
    · exact Literal.eq_of_prefix h1
    · exact (Literal.eq_of_prefix h2).symm
  · rintro rfl
    exact List.prefix_append _ _

/-- **The occurrences in a piece and what follows it**: the literal of the
piece, and those of the rest. -/
theorem occursAt_piece_iff (hg : Free g) :
    m.OccursAt (g ++ l.letters ++ rest) i ↔
      (i = g.length ∧ m = l) ∨
      ∃ j, i = g.length + l.letters.length + j ∧ m.OccursAt rest j := by
  unfold Literal.OccursAt
  rw [List.append_assoc]
  constructor
  · intro hp
    rcases Nat.lt_trichotomy i g.length with hlt | heq | hgt
    · -- It would have to stand in the gap.
      rw [List.drop_append_of_le_length (by omega)] at hp
      have hne : g.drop i ≠ [] := by
        rw [ne_eq, List.drop_eq_nil_iff]
        omega
      have hpre := prefix_of_prefix_append hne hp
      exact absurd (hpre.isInfix.trans (List.drop_suffix i g).isInfix) (hg m)
    · subst heq
      rw [List.drop_left] at hp
      exact .inl ⟨rfl, prefix_letters_append_iff.mp hp⟩
    · obtain ⟨d, rfl⟩ : ∃ d, i = g.length + d := ⟨i - g.length, by omega⟩
      rw [List.drop_length_add_append] at hp
      -- Inside the literal none begins; behind it the index is one of the rest.
      by_cases hd : d < l.letters.length
      · rw [List.drop_append_of_le_length (by omega)] at hp
        exact absurd hp (not_prefix_drop (by omega) hd)
      · obtain ⟨j, rfl⟩ : ∃ j, d = l.letters.length + j := ⟨d - l.letters.length, by omega⟩
        rw [List.drop_length_add_append] at hp
        exact .inr ⟨j, by omega, hp⟩
  · rintro (⟨rfl, rfl⟩ | ⟨j, rfl, hp⟩)
    · rw [List.drop_left]
      exact List.prefix_append _ _
    · rw [Nat.add_assoc, List.drop_length_add_append, List.drop_length_add_append]
      exact hp

/-- A free gap stays free until the last letter of the literal behind it. -/
theorem Free.append_dropLast (hg : Free g) : Free (g ++ l.letters.dropLast) := by
  intro m hm
  obtain ⟨s, t, hst⟩ := hm
  -- An occurrence there is one in the whole piece, where only `l` occurs; but
  -- `l` is longer than what is left of it.
  have hocc : m.OccursAt (g ++ l.letters ++ []) s.length := by
    have hpre : g ++ l.letters.dropLast <+: g ++ l.letters ++ [] := by
      rw [List.append_nil, List.prefix_append_right_inj]
      exact List.dropLast_prefix _
    obtain ⟨u, hu⟩ := hpre
    rw [Literal.OccursAt, ← hu, ← hst, List.append_assoc, List.append_assoc, List.drop_left]
    exact List.prefix_append _ _
  rcases (occursAt_piece_iff hg).mp hocc with ⟨hs, rfl⟩ | ⟨j, -, hp⟩
  · have hlen := congrArg List.length hst
    have hpos := m.length_letters_pos
    simp only [List.length_append, List.length_dropLast] at hlen
    omega
  · rw [Literal.OccursAt, List.drop_nil, List.prefix_nil] at hp
    exact m.letters_ne_nil hp

/-! ## §3. Reading a text by pieces. -/

/-- A text is free of literals or begins with a piece: a free gap and a
literal. -/
theorem free_or_piece (cs : List Char) :
    Free cs ∨ ∃ g l rest, Free g ∧ cs = g ++ Literal.letters l ++ rest := by
  induction cs with
  | nil => exact .inl free_nil
  | cons c cs ih =>
      by_cases hfront : ∃ l : Literal, l.letters <+: c :: cs
      · obtain ⟨l, rest, hrest⟩ := hfront
        exact .inr ⟨[], l, rest, free_nil, hrest.symm⟩
      · rcases ih with hfree | ⟨g, l, rest, hg, rfl⟩
        · refine .inl fun l hl => ?_
          rcases List.infix_cons_iff.mp hl with hp | hin
          · exact hfront ⟨l, hp⟩
          · exact hfree l hin
        · refine .inr ⟨c :: g, l, rest, fun m hm => ?_, rfl⟩
          rcases List.infix_cons_iff.mp hm with hp | hin
          · refine hfront ⟨m, hp.trans ⟨l.letters ++ rest, ?_⟩⟩
            rw [List.cons_append, List.append_assoc]
          · exact hg m hin

/-- **Induction over the pieces of a text.** -/
theorem piece_induction {P : List Char → Prop} (free : ∀ cs, Free cs → P cs)
    (piece : ∀ g l rest, Free g → P rest → P (g ++ Literal.letters l ++ rest))
    (cs : List Char) : P cs := by
  induction hn : cs.length using Nat.strongRecOn generalizing cs with
  | ind n ih =>
      rcases free_or_piece cs with hfree | ⟨g, l, rest, hg, rfl⟩
      · exact free cs hfree
      · refine piece g l rest hg (ih rest.length ?_ rest rfl)
        have hpos := l.length_letters_pos
        simp only [List.length_append] at hn
        omega

end

end Prairie
