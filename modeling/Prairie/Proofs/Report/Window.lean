/-
  Prairie.Proofs.Report.Window
  ────────────────────────────
  **THE WINDOW OF AN EXCERPT.**

  An excerpt is asked for at a byte offset that may come from another text than
  the one that is shown.  Every offset has one PLACE there, a number of
  characters:

      after some characters          as many as there are
      past the end of the text       none
      inside a character             none

  The window reaches from 32 characters before the place to 32 behind it, as
  far as there is text.  Both of its ends are indices of characters, so the
  bytes between them can be cut out of any text, and what is cut out is at most
  65 characters wide, with the place at its caret.
-/
import Prairie.Proofs.Report.Caret
import Prairie.Proofs.Source.Canonical

namespace Prairie

/-! ## §1. The place of an offset. -/

namespace Text

variable {cs : List Char} {offset pos start stop : Nat}

/-- The place of a byte offset in a text: how many characters precede it, and
none if it is past the end or inside a character. -/
inductive Place (cs : List Char) (offset : Nat) : Nat → Prop where
  | after {before behind : List Char} (split : cs = before ++ behind)
      (width : byteWidth before = offset) : Place cs offset before.length
  | past (beyond : byteWidth cs < offset) : Place cs offset 0
  | inside {before behind : List Char} {c : Char} (split : cs = before ++ c :: behind)
      (begun : byteWidth before < offset) (unfinished : offset < byteWidth before + c.utf8Size) :
      Place cs offset 0

theorem charsBefore?_go_of_past (count : Nat) (h : byteWidth cs < offset) :
    charsBefore?.go offset count cs = none := by
  induction cs generalizing offset count with
  | nil =>
      obtain ⟨left, rfl⟩ := Nat.exists_eq_add_one_of_ne_zero (Nat.ne_zero_of_lt h)
      rfl
  | cons c cs ih =>
      rw [byteWidth_cons] at h
      obtain ⟨left, rfl⟩ := Nat.exists_eq_add_one_of_ne_zero (Nat.ne_zero_of_lt h)
      rw [charsBefore?.go, if_pos (by omega)]
      exact ih _ (by omega)

theorem charsBefore?_go_of_inside {before behind : List Char} {c : Char} (count : Nat)
    (begun : byteWidth before < offset) (unfinished : offset < byteWidth before + c.utf8Size) :
    charsBefore?.go offset count (before ++ c :: behind) = none := by
  induction before generalizing offset count with
  | nil =>
      obtain ⟨left, rfl⟩ := Nat.exists_eq_add_one_of_ne_zero (Nat.ne_zero_of_lt begun)
      rw [byteWidth_nil, Nat.zero_add] at unfinished
      rw [List.nil_append, charsBefore?.go, if_neg (by omega)]
  | cons d before ih =>
      rw [byteWidth_cons] at begun unfinished
      obtain ⟨left, rfl⟩ := Nat.exists_eq_add_one_of_ne_zero (Nat.ne_zero_of_lt begun)
      rw [List.cons_append, charsBefore?.go, if_pos (by omega)]
      exact ih _ (by omega) (by omega)

/-- The place of an offset is where counting arrives, or the start. -/
theorem Place.eq_getD (h : Place cs offset pos) : (charsBefore? offset cs).getD 0 = pos := by
  cases h with
  | @after before behind split width =>
      have hgo := charsBefore?_go_byteWidth before behind 0
      rw [← split, width, Nat.zero_add] at hgo
      rw [charsBefore?, hgo, Option.getD_some]
  | past beyond => rw [charsBefore?, charsBefore?_go_of_past 0 beyond, Option.getD_none]
  | inside split begun unfinished =>
      rw [split, charsBefore?, charsBefore?_go_of_inside 0 begun unfinished, Option.getD_none]

/-- **Every offset has a place in every text.** -/
theorem exists_place (cs : List Char) (offset : Nat) : ∃ pos, Place cs offset pos := by
  induction cs generalizing offset with
  | nil =>
      rcases Nat.eq_zero_or_pos offset with rfl | hpos
      · exact ⟨_, .after (List.append_nil []).symm rfl⟩
      · exact ⟨_, .past hpos⟩
  | cons c cs ih =>
      rcases Nat.eq_zero_or_pos offset with rfl | hpos
      · exact ⟨_, .after (List.nil_append (c :: cs)).symm rfl⟩
      by_cases hfits : offset < c.utf8Size
      · exact ⟨_, .inside (List.nil_append (c :: cs)).symm hpos
          (by rw [byteWidth_nil, Nat.zero_add]; exact hfits)⟩
      · -- The offset is behind `c`, so its place is one in `cs`.
        obtain ⟨rest, rfl⟩ := Nat.exists_eq_add_of_le (Nat.le_of_not_lt hfits)
        obtain ⟨pos, hplace⟩ := ih rest
        cases hplace with
        | @after before behind split width =>
            have hsplit : c :: cs = c :: before ++ behind := by rw [split, List.cons_append]
            exact ⟨_, .after hsplit (by rw [byteWidth_cons, width])⟩
        | past beyond => exact ⟨_, .past (by rw [byteWidth_cons]; omega)⟩
        | @inside before behind d split begun unfinished =>
            have hsplit : c :: cs = c :: before ++ d :: behind := by rw [split, List.cons_append]
            exact ⟨_, .inside hsplit (by rw [byteWidth_cons]; omega)
              (by rw [byteWidth_cons]; omega)⟩

/-- **The place is found by counting**, and there is only one. -/
theorem place_iff : Place cs offset pos ↔ (charsBefore? offset cs).getD 0 = pos := by
  constructor
  · exact Place.eq_getD
  · rintro rfl
    obtain ⟨pos, hplace⟩ := exists_place cs offset
    rw [hplace.eq_getD]
    exact hplace

theorem Place.le_length (h : Place cs offset pos) : pos ≤ cs.length := by
  cases h with
  | after split width =>
      rw [split, List.length_append]
      exact Nat.le_add_right _ _
  | past beyond => exact Nat.zero_le _
  | inside split begun unfinished => exact Nat.zero_le _

/-! ## §2. Cutting at characters. -/

/-- The byte offset of the character with index `n`; the end of the text if there
is none. -/
def offsetOf (cs : List Char) (n : Nat) : Nat := byteWidth (cs.take n)

/-- **What is between two characters can be cut out by bytes.** -/
theorem between_extract (h : start ≤ stop) :
    Between cs (offsetOf cs start) (offsetOf cs stop) (cs.extract start stop) := by
  unfold offsetOf
  have hmid : cs.take stop = cs.take start ++ cs.extract start stop := by
    obtain ⟨n, rfl⟩ := Nat.exists_eq_add_of_le h
    rw [List.extract_eq_take_drop, Nat.add_sub_cancel_left, List.take_add]
  refine ⟨cs.take start, cs.drop stop, ?_, rfl, ?_⟩
  · rw [← hmid, List.take_append_drop]
  · rw [hmid, byteWidth_append]

end Text

/-! ## §3. The window. -/

namespace Excerpt

variable {shown : List Char} {place : Nat}

/-- The characters in the window around a place. -/
def window (place : Nat) (shown : List Char) : List Char :=
  shown.extract (place - 32) (min (place + 33) shown.length)

theorem flatten_eq (c : Char) : flatten c = if c = '\n' ∨ c = '\r' ∨ c = '\t' then ' ' else c := by
  simp [flatten, or_assoc]

/-- The line of an excerpt is what is in the window. -/
theorem line_around (place : Nat) (shown : List Char) :
    (around place shown).line = (window place shown).map flatten := by
  unfold around window reach
  rw [List.extract_eq_take_drop]
  refine congrArg (List.map flatten) ?_
  -- Where the text ends first, both cuts take all that is left.
  rw [List.take_eq_take_iff, List.length_drop]
  omega

theorem caret_around (place : Nat) (shown : List Char) :
    (around place shown).caret = min place 32 := rfl

theorem length_window_le (place : Nat) (shown : List Char) : (window place shown).length ≤ 65 := by
  have hlen := length_line_around_le place shown
  rwa [line_around, List.length_map] at hlen

/-- **The window can be cut out of the bytes of the text.** -/
theorem between_window (h : place ≤ shown.length) :
    Text.Between shown (Text.offsetOf shown (place - 32))
      (Text.offsetOf shown (min (place + 33) shown.length)) (window place shown) :=
  Text.between_extract (by omega)

end Excerpt

/-! ## §4. The first character of a token. -/

/-- A text that is trimmed does not begin with a blank. -/
theorem Text.not_isBlank_head {cs : List Char} {c : Char} (htrim : Text.trim cs = cs)
    (hc : cs.head? = some c) : Text.isBlank c = false := by
  have hstart : cs.dropWhile Text.isBlank = cs := by
    have h := Text.trimStart_trim cs
    rwa [htrim] at h
  obtain ⟨rest, rfl⟩ := List.head?_eq_some_iff.mp hc
  have hfirst := List.dropWhile_eq_self_iff.mp hstart (Nat.zero_lt_succ _)
  rwa [Bool.not_eq_true] at hfirst

/-- **The text of a token begins with something, and that is no blank.** -/
theorem Program.head?_text {source : String} {i : Nat} {t : Token}
    (h : (ofSource source).token? i = some t) :
    ∃ c, t.text.toList.head? = some c ∧ Text.isBlank c = false := by
  rw [token?_eq] at h
  cases t with
  | literal l =>
      obtain ⟨c, rest, hletters⟩ := List.exists_cons_of_ne_nil l.letters_ne_nil
      have hmem : c ∈ l.letters := by
        rw [hletters]
        exact List.mem_cons_self
      refine ⟨c, ?_, l.not_isBlank hmem⟩
      show l.letters.head? = some c
      rw [hletters]
      rfl
  | comment text =>
      obtain ⟨hne, htrim, -, -⟩ := canonical_ofSource source i text h
      have hcs : text.toList ≠ [] := mt String.toList_eq_nil_iff.mp hne
      obtain ⟨c, rest, hsplit⟩ := List.exists_cons_of_ne_nil hcs
      have hhead : text.toList.head? = some c := by
        rw [hsplit]
        rfl
      refine ⟨c, hhead, Text.not_isBlank_head ?_ hhead⟩
      rw [← Text.toList_trimmed, htrim]

/-- A character that is no blank is shown as it is. -/
theorem Excerpt.flatten_of_not_blank {c : Char} (h : Text.isBlank c = false) : flatten c = c := by
  rw [flatten_eq, if_neg]
  rintro (rfl | rfl | rfl)
  · exact absurd h (by decide)
  · exact absurd h (by decide)
  · exact absurd h (by decide)

/-- The character at the place of a token is the first one of its text. -/
theorem Program.place_of_token {source : String} {i : Nat} {t : Token}
    (h : (ofSource source).token? i = some t) :
    ∃ sp pos, (ofSource source).span? i = some sp ∧ Text.Place source.toList sp.start pos ∧
      source.toList[pos]? = t.text.toList.head? := by
  obtain ⟨-, -, -, before, gap, behind, -, -, -, hsource, -, hspan, -⟩ := ofSource_cut h
  obtain ⟨c, hc, -⟩ := head?_text h
  obtain ⟨rest, hrest⟩ := List.head?_eq_some_iff.mp hc
  -- What precedes the span is just what precedes the text of the token.
  rw [List.append_assoc _ t.text.toList] at hsource
  refine ⟨_, _, hspan, .after hsource rfl, ?_⟩
  rw [hsource, List.getElem?_append_right (Nat.le_refl _), Nat.sub_self, hrest]
  rfl

/-! ## §5. Reports. -/

/-- **THE EXCERPT OF A REPORT IS WELL FORMED AND ITS CARET STANDS UNDER THE
TOKEN.**  Whatever text is shown and whatever program and index the report is
about:

Without a span there is the first line and no more.  With one there is one place
in the text that is shown, and a second line with the characters in the window
around it, line feeds, carriage returns and tabs as spaces, at most 65 of them,
and a third line with the caret under the place.  The window is a slice of the
bytes of that text, and neither of its ends is inside a character.

If the program is the one of the text that is shown, every token has an excerpt,
and the caret stands under the first character of the token. -/
theorem excerpt_shows_window (summary shown : String) (p : Program) (i : Nat) :
    (p.span? i = none → Report.atToken summary shown p i = s!"{summary} at token {i}\n") ∧
    (∀ sp, p.span? i = some sp → ∃ pos, Text.Place shown.toList sp.start pos ∧
      (∀ other, Text.Place shown.toList sp.start other → other = pos) ∧
      (Excerpt.window pos shown.toList).length ≤ 65 ∧
      Text.Sliced shown (Text.offsetOf shown.toList (pos - 32))
        (Text.offsetOf shown.toList (min (pos + 33) shown.toList.length))
        (String.ofList (Excerpt.window pos shown.toList)) ∧
      Report.atToken summary shown p i
        = s!"{summary} at token {i}\n" ++ ("  "
            ++ String.ofList ((Excerpt.window pos shown.toList).map fun c =>
                if c = '\n' ∨ c = '\r' ∨ c = '\t' then ' ' else c)
            ++ "\n  " ++ Text.spaces (min pos 32) ++ "^\n")) ∧
    (∀ t, p = .ofSource shown → p.token? i = some t →
      ∃ sp pos c, p.span? i = some sp ∧ Text.Place shown.toList sp.start pos ∧
        t.text.toList.head? = some c ∧
        ((Excerpt.window pos shown.toList).map fun c =>
          if c = '\n' ∨ c = '\r' ∨ c = '\t' then ' ' else c)[min pos 32]? = some c) := by
  have hflat : (fun c => if c = '\n' ∨ c = '\r' ∨ c = '\t' then ' ' else c) = Excerpt.flatten :=
    funext fun c => (Excerpt.flatten_eq c).symm
  rw [hflat]
  refine ⟨fun hnone => ?_, fun sp hsp => ?_, fun t hp ht => ?_⟩
  · rw [Report.atToken, hnone, String.append_empty]
  · obtain ⟨pos, hplace⟩ := Text.exists_place shown.toList sp.start
    have hpos := hplace.eq_getD
    refine ⟨pos, hplace, fun other hother => hother.eq_getD.symm.trans hpos,
      Excerpt.length_window_le _ _, (Excerpt.between_window hplace.le_length).sliced, ?_⟩
    rw [Report.atToken_of_span hsp, Excerpt.atOffset, hpos, Excerpt.render, Excerpt.line_around,
      Excerpt.caret_around]
  · subst hp
    obtain ⟨sp, pos, hsp, hplace, hat⟩ := Program.place_of_token ht
    obtain ⟨c, hc, hblank⟩ := Program.head?_text ht
    refine ⟨sp, pos, c, hsp, hplace, hc, ?_⟩
    rw [← Excerpt.line_around, ← Excerpt.caret_around pos shown.toList,
      Excerpt.getElem?_caret_around, hat, hc, Option.map_some,
      Excerpt.flatten_of_not_blank hblank]

/-- A bracket far behind wide letters and a line feed. -/
def farBracket : String := String.ofList (List.replicate 40 'é') ++ "\n)"

/-- A text that is not the source of the program, with the span inside of a
letter; and a window that is cut on the left. -/
theorem excerpt_shows_window_insideLetter :
    (Program.ofSource "ab(").span? 1 = some ⟨2, 3⟩ ∧
    Text.Place "日本".toList 2 0 ∧
    Report.atToken "fault" "日本" (.ofSource "ab(") 1 = "fault at token 1\n  日本\n  ^\n" ∧
    (Program.ofSource farBracket).token? 1 = some (.literal .loopEnd) ∧
    ∃ sp pos, (Program.ofSource farBracket).span? 1 = some sp ∧
      Text.Place farBracket.toList sp.start pos ∧
      ((Excerpt.window pos farBracket.toList).map fun c =>
        if c = '\n' ∨ c = '\r' ∨ c = '\t' then ' ' else c)[min pos 32]? = some ')' := by
  have hspan : (Program.ofSource "ab(").span? 1 = some ⟨2, 3⟩ := by decide +kernel
  have hinside : Text.Place "日本".toList 2 0 :=
    .inside (List.nil_append ['日', '本']).symm (by decide) (by decide)
  have htoken : (Program.ofSource farBracket).token? 1 = some (.literal .loopEnd) := by
    decide +kernel
  refine ⟨hspan, hinside, ?_, htoken, ?_⟩
  · obtain ⟨pos, -, honly, -, -, hreport⟩ :=
      (excerpt_shows_window "fault" "日本" (.ofSource "ab(") 1).2.1 _ hspan
    obtain rfl : 0 = pos := honly 0 hinside
    rw [hreport]
    decide +kernel
  · obtain ⟨sp, pos, c, hsp, hplace, hc, hcaret⟩ :=
      (excerpt_shows_window "fault" farBracket (.ofSource farBracket) 1).2.2 _ rfl htoken
    obtain rfl : ')' = c := Option.some.inj hc
    exact ⟨sp, pos, hsp, hplace, hcaret⟩

end Prairie
