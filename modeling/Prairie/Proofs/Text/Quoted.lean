/-
  Prairie.Proofs.Text.Quoted
  ──────────────────────────
  **A QUOTED TEXT CAN BE READ BACK.**

  A backslash says how a character is written, and the character that follows
  it says which escape it is:

      \t       one of the six short escapes: a letter, never a `u`
      \u       a code point in hexadecimal, up to the closing brace
      others   stand for themselves, and none of them is a backslash

  So what a character is written as tells the character and where it ends,
  whatever follows (`legible_escape`), texts that look like an escape
  included: their backslash is escaped.  A double quote inside is escaped too,
  so the first one that is not ends the text (`legible_quote`).  No way of
  writing a character holds a line feed.
-/
import Prairie.Proofs.Text.Legible
import Prairie.Text.Quoted

namespace Prairie.Text

variable {c d letter : Char} {x y : List Char}

/-! ## §1. The ways to write a character. -/

/-- The characters with a short escape, and its letter. -/
def shortEscapes : List (Char × Char) :=
  [('\x00', '0'), ('\t', 't'), ('\r', 'r'), ('\n', 'n'), ('\x22', '\x22'), ('\\', '\\')]

theorem mem_shortEscapes (h : shortEscape? c = some letter) : (c, letter) ∈ shortEscapes := by
  unfold shortEscape? at h
  -- One test for each of the six, and nothing behind the last one.
  iterate 6
    split at h
    next hc => cases h; rw [hc]; decide
  cases h

/-- A character without a short escape is none of those that have one. -/
theorem ne_of_shortEscape?_eq_none (h : shortEscape? c = none) :
    c ≠ '\n' ∧ c ≠ '\x22' ∧ c ≠ '\\' := by
  refine ⟨?_, ?_, ?_⟩ <;> rintro rfl <;> exact absurd h (by decide)

/-- How a character is written. -/
inductive Escaped : Char → List Char → Prop where
  | short {c letter : Char} (mem : (c, letter) ∈ shortEscapes) : Escaped c ['\\', letter]
  | codePoint (c : Char) : Escaped c (codePointEscape c)
  | plain {c : Char} (not_lineFeed : c ≠ '\n') (not_quote : c ≠ '\x22') (not_backslash : c ≠ '\\') :
      Escaped c [c]

theorem escaped_escape (c : Char) : Escaped c (escape c) := by
  unfold escape
  split
  next letter hshort => exact .short (mem_shortEscapes hshort)
  next hnone =>
      obtain ⟨hlineFeed, hquote, hbackslash⟩ := ne_of_shortEscape?_eq_none hnone
      split
      · exact .codePoint c
      · exact .plain hlineFeed hquote hbackslash

/-! ## §2. Code points. -/

/-- Digits of any base are written with the characters for digits. -/
theorem exists_of_mem_toDigits {b : Nat} (hb : 1 < b) (n : Nat) (hc : c ∈ Nat.toDigits b n) :
    ∃ k, c = Nat.digitChar k := by
  induction n using Nat.strongRecOn with
  | ind n ih =>
      rw [toDigits_eq hb n] at hc
      rcases List.mem_append.mp hc with hfront | hlast
      · by_cases hn : n < b
        · rw [if_pos hn] at hfront
          cases hfront
        · rw [if_neg hn] at hfront
          exact ih _ (Nat.div_lt_self (by omega) hb) hfront
      · exact ⟨_, List.mem_singleton.mp hlast⟩

/-- **Hexadecimal digits are legible** in front of the closing brace. -/
theorem legible_hexadecimal : Legible (Nat.toDigits 16) (Stops (· ≠ '\x7d')) := by
  refine .of_run (fun m n h => toDigits_inj (by decide) (by decide) h) fun n c hc => ?_
  obtain ⟨k, rfl⟩ := exists_of_mem_toDigits (by decide) n hc
  exact decide_eq_true (Nat.digitChar_ne _ (by decide))

theorem codePointEscape_append (c : Char) (x : List Char) : codePointEscape c ++ x
    = '\\' :: 'u' :: '\x7b' :: (Nat.toDigits 16 c.toNat ++ '\x7d' :: x) := by
  simp [codePointEscape]

/-- **Escaped code points are legible**, whatever follows. -/
theorem legible_codePointEscape : Legible codePointEscape fun _ => True := by
  intro c d x y _ _ h
  rw [codePointEscape_append, codePointEscape_append] at h
  simp only [List.cons.injEq, true_and] at h
  obtain ⟨hcode, hrest⟩ := legible_hexadecimal _ _ _ _ (stops_cons.mpr (by decide))
    (stops_cons.mpr (by decide)) h
  exact ⟨Char.toNat_inj.mp hcode, (List.cons.inj hrest).2⟩

/-! ## §3. Characters and texts. -/

/-- **What a character is written as can be told from what follows it.** -/
theorem legible_escape : Legible escape fun _ => True := by
  have hletter : ∀ e ∈ shortEscapes, e.2 ≠ 'u' := by decide
  have hinj : ∀ e ∈ shortEscapes, ∀ e' ∈ shortEscapes, e.2 = e'.2 → e = e' := by decide
  intro c d x y _ _ h
  have hc := escaped_escape c
  have hd := escaped_escape d
  -- The first character tells plain ones from escapes, the second one the two kinds of escapes.
  generalize escape c = cs at h hc
  generalize escape d = ds at h hd
  cases hc with
  | short mem =>
      cases hd with
      | short mem' =>
          injection h with _ h
          injection h with hsame hrest
          cases hinj _ mem _ mem' hsame
          exact ⟨rfl, hrest⟩
      | codePoint =>
          rw [codePointEscape_append] at h
          injection h with _ h
          injection h with hu _
          exact absurd hu (hletter _ mem)
      | plain _ _ hbackslash =>
          injection h with hsame _
          exact absurd hsame.symm hbackslash
  | codePoint =>
      rw [codePointEscape_append] at h
      cases hd with
      | short mem' =>
          injection h with _ h
          injection h with hu _
          exact absurd hu.symm (hletter _ mem')
      | codePoint =>
          rw [← codePointEscape_append] at h
          exact legible_codePointEscape _ _ _ _ trivial trivial h
      | plain _ _ hbackslash =>
          injection h with hsame _
          exact absurd hsame.symm hbackslash
  | plain _ _ hbackslash =>
      cases hd with
      | short mem' =>
          injection h with hsame _
          exact absurd hsame hbackslash
      | codePoint =>
          rw [codePointEscape_append] at h
          injection h with hsame _
          exact absurd hsame hbackslash
      | plain _ _ _ =>
          injection h with hsame hrest
          exact ⟨hsame, hrest⟩

/-- No character is written with a double quote in front. -/
theorem escape_append_ne (c : Char) (x y : List Char) : escape c ++ x ≠ '\x22' :: y := by
  have hc := escaped_escape c
  generalize escape c = cs at hc
  intro h
  cases hc with
  | short mem =>
      injection h with hfirst _
      exact absurd hfirst (by decide)
  | codePoint =>
      rw [codePointEscape_append] at h
      injection h with hfirst _
      exact absurd hfirst (by decide)
  | plain _ hquote _ =>
      injection h with hfirst _
      exact hquote hfirst

theorem toList_quote (s : String) :
    (quote s).toList = '\x22' :: (s.toList.flatMap escape ++ ['\x22']) := String.toList_ofList

/-- **A quoted text can be told from what follows it**, whatever follows. -/
theorem legible_quote : Legible (fun s => (quote s).toList) fun _ => True := by
  have htext : Legible (fun cs : List Char => cs.flatMap escape) fun z => ∃ w, z = '\x22' :: w := by
    refine legible_escape.flatMap (fun _ _ => trivial) (fun _ _ => trivial) ?_
    rintro c z ⟨w, hw⟩
    exact escape_append_ne c z w hw
  intro s t x y _ _ h
  simp only [toList_quote, List.cons_append, List.append_assoc, List.nil_append, List.cons.injEq,
    true_and] at h
  obtain ⟨hsame, hrest⟩ := htext _ _ _ _ ⟨x, rfl⟩ ⟨y, rfl⟩ h
  exact ⟨String.toList_inj.mp hsame, (List.cons.inj hrest).2⟩

/-- **A quoted text holds no line feed.** -/
theorem not_mem_quote (s : String) : '\n' ∉ (quote s).toList := by
  have hletter : ∀ e ∈ shortEscapes, e.2 ≠ '\n' := by decide
  have hescape : ∀ c, '\n' ∉ escape c := by
    intro c
    have hc := escaped_escape c
    generalize escape c = cs at hc
    cases hc with
    | short mem => simpa using (hletter _ mem).symm
    | codePoint =>
        intro hmem
        simp only [codePointEscape, List.mem_append, List.mem_cons, List.not_mem_nil, or_false,
          Char.reduceEq, false_or] at hmem
        obtain ⟨k, hk⟩ := exists_of_mem_toDigits (by decide) _ hmem
        exact absurd hk.symm (Nat.digitChar_ne _ (by decide))
    | plain hlineFeed _ _ => simpa using hlineFeed.symm
  rw [toList_quote]
  simp [hescape]

end Prairie.Text
