/-
  Prairie.Proofs.Text.Trim
  ────────────────────────
  **LAWS OF TRIMMING.**

  A trimmed text is what is left of the text between blanks, trimming twice is
  trimming once, and nothing is left exactly of a text of blanks:

      cs = blanks ++ trim cs ++ blanks
      trim (blanks ++ cs) = trim cs = trim (cs ++ blanks)
      trim (trim cs) = trim cs
      trim (c :: cs) = c :: trimEnd cs        (c not blank)
      trim cs = []  ↔  cs is all blank
-/
import Mathlib.Data.List.DropRight
import Prairie.Text.Blank

namespace Prairie.Text

theorem trimEnd_eq_rdropWhile (cs : List Char) : trimEnd cs = cs.rdropWhile isBlank := rfl

theorem trim_infix (cs : List Char) : trim cs <:+: cs := by
  have hend : trim cs <+: trimStart cs := by
    rw [trim, trimEnd_eq_rdropWhile]
    exact List.rdropWhile_prefix _ _
  exact hend.isInfix.trans (List.dropWhile_suffix _).isInfix

/-- What is cut off at the back is blank. -/
theorem trimEnd_split (cs : List Char) :
    ∃ back, cs = trimEnd cs ++ back ∧ back.all isBlank = true := by
  refine ⟨cs.rtakeWhile isBlank, ?_, ?_⟩
  · rw [trimEnd_eq_rdropWhile, List.rdropWhile_append_rtakeWhile]
  · rw [List.all_eq_true]
    intro c hc
    exact List.mem_rtakeWhile_imp hc

/-- What trimming cuts off at the ends is blank. -/
theorem trim_split (cs : List Char) :
    ∃ back, cs = cs.takeWhile isBlank ++ trim cs ++ back ∧ back.all isBlank = true := by
  obtain ⟨back, hsplit, hback⟩ := trimEnd_split (trimStart cs)
  refine ⟨back, ?_, hback⟩
  rw [List.append_assoc, trim, ← hsplit, trimStart, List.takeWhile_append_dropWhile]

/-- Trimming the back of a text that starts with no blank leaves it so. -/
theorem trimStart_trim (cs : List Char) : trimStart (trim cs) = trim cs := by
  rw [trimStart, List.dropWhile_eq_self_iff]
  intro hl
  -- The first character left is the first one of `trimStart cs`.
  have hpre : trim cs <+: cs.dropWhile isBlank := by
    rw [trim, trimEnd_eq_rdropWhile]
    exact List.rdropWhile_prefix _ _
  have hidem := List.dropWhile_eq_self_iff.mp (List.dropWhile_idempotent isBlank cs)
  rw [hpre.getElem hl]
  exact hidem (Nat.lt_of_lt_of_le hl hpre.length_le)

@[simp] theorem trim_trim (cs : List Char) : trim (trim cs) = trim cs := by
  rw [trim, trimStart_trim, trim, trimEnd_eq_rdropWhile, trimEnd_eq_rdropWhile,
    List.rdropWhile_idempotent]

theorem trimmed_trimmed (s : String) : trimmed (trimmed s) = trimmed s := by
  rw [trimmed, toList_trimmed, trim_trim]
  rfl

theorem trim_eq_nil_iff {cs : List Char} : trim cs = [] ↔ cs.all isBlank = true := by
  rw [trim, trimEnd_eq_rdropWhile, List.rdropWhile_eq_nil_iff, List.all_eq_true]
  constructor
  · intro h c hc
    rw [← List.takeWhile_append_dropWhile (p := isBlank) (l := cs)] at hc
    rcases List.mem_append.mp hc with ht | hd
    · exact List.mem_takeWhile_imp ht
    · exact h c hd
  · intro h c hc
    exact h c ((List.dropWhile_suffix isBlank).subset hc)

variable {cs bs : List Char}

/-- The blanks in front of a text that is more than blanks end in it. -/
theorem takeWhile_append_of_text (h : ¬ cs.all isBlank = true) :
    (cs ++ bs).takeWhile isBlank = cs.takeWhile isBlank := by
  rw [List.takeWhile_append, if_neg]
  intro hlen
  have hself := (List.takeWhile_prefix isBlank (l := cs)).eq_of_length hlen
  rw [List.takeWhile_eq_self_iff] at hself
  exact h (List.all_eq_true.mpr hself)

/-- Blanks in front of a text are trimmed off. -/
theorem trim_blanks_append (hb : bs.all isBlank = true) : trim (bs ++ cs) = trim cs := by
  have hfront : (bs ++ cs).dropWhile isBlank = cs.dropWhile isBlank := by
    refine List.dropWhile_append_of_pos fun b hmem => ?_
    exact List.all_eq_true.mp hb b hmem
  rw [trim, trimStart, hfront]
  rfl

/-- Blanks behind a text are trimmed off. -/
theorem trim_append_blanks (hb : bs.all isBlank = true) : trim (cs ++ bs) = trim cs := by
  by_cases h : cs.all isBlank = true
  · have hall : (cs ++ bs).all isBlank = true := by rw [List.all_append, h, hb]; rfl
    rw [trim_eq_nil_iff.mpr h, trim_eq_nil_iff.mpr hall]
  · -- The blanks in front end in `cs`, and those behind are dropped from the back.
    have hstart : trimStart (cs ++ bs) = trimStart cs ++ bs := by
      have hcs := List.takeWhile_append_dropWhile (p := isBlank) (l := cs ++ bs)
      rw [takeWhile_append_of_text h] at hcs
      have hcs' := List.takeWhile_append_dropWhile (p := isBlank) (l := cs)
      conv_rhs at hcs => rw [← hcs', List.append_assoc]
      exact List.append_cancel_left hcs
    have hend : ∀ xs, trimEnd (xs ++ bs) = trimEnd xs := by
      intro xs
      unfold trimEnd
      rw [List.reverse_append, List.dropWhile_append_of_pos fun b hmem => ?_]
      exact List.all_eq_true.mp hb b (List.mem_reverse.mp hmem)
    rw [trim, hstart, hend]
    rfl

/-- Trimming the back first makes no difference. -/
@[simp] theorem trim_trimEnd (cs : List Char) : trim (trimEnd cs) = trim cs := by
  obtain ⟨back, hsplit, hback⟩ := trimEnd_split cs
  calc trim (trimEnd cs) = trim (trimEnd cs ++ back) := (trim_append_blanks hback).symm
    _ = trim cs := by rw [← hsplit]

/-- A character that is not blank stays, and what stands behind it is trimmed at
the back alone. -/
theorem trim_cons {c : Char} (hc : isBlank c = false) (cs : List Char) :
    trim (c :: cs) = c :: trimEnd cs := by
  have hkept : ¬ isBlank c = true := by
    rw [hc]
    exact Bool.false_ne_true
  have hstart : trimStart (c :: cs) = c :: cs := List.dropWhile_cons_of_neg hkept
  have hlast : [c].dropWhile isBlank = [c] := List.dropWhile_cons_of_neg hkept
  rw [trim, hstart, trimEnd, List.reverse_cons, List.dropWhile_append, hlast]
  unfold trimEnd
  -- Either something of `cs` is left in front of `c`, or nothing is.
  split
  next hnil =>
      rw [List.isEmpty_iff.mp hnil]
      rfl
  next => rw [List.reverse_append, List.reverse_singleton, List.singleton_append]

/-- A text without a blank is left as it is. -/
theorem trim_of_no_blank (h : ∀ c ∈ cs, isBlank c = false) : trim cs = cs := by
  have hstart : trimStart cs = cs := by
    rw [trimStart, List.dropWhile_eq_self_iff]
    intro hl
    rw [h _ (List.getElem_mem hl)]
    exact Bool.false_ne_true
  rw [trim, hstart, trimEnd_eq_rdropWhile, List.rdropWhile_eq_self_iff]
  intro hne
  rw [h _ (List.getLast_mem hne)]
  exact Bool.false_ne_true

end Prairie.Text
