/-
  Prairie.Proofs.Report.Caret
  ───────────────────────────
  **THE CARET STANDS UNDER THE PLACE.**

  A report is given a byte offset and shows characters.  The offset of a
  token is the width of the characters before it, and so counting back gives
  their number; the excerpt is cut around the character with that number, and
  the column of the caret is what the cut left of it:

      charsBefore? (byteWidth (first n characters)) = n
      line of the excerpt at the caret              = character n, flattened
-/
import Prairie.Proofs.Source.FirstBreak
import Prairie.Report.Diagnosis

namespace Prairie

/-! ## §1. Counting back. -/

namespace Text

theorem charsBefore?_go_byteWidth (front behind : List Char) (count : Nat) :
    charsBefore?.go (byteWidth front) count (front ++ behind) = some (count + front.length) := by
  induction front generalizing count with
  | nil => simp [charsBefore?.go]
  | cons c front ih =>
      -- A character is at least one byte wide, so the offset is not used up.
      obtain ⟨left, hleft⟩ : ∃ left, byteWidth (c :: front) = left + 1 := by
        have hpos := c.utf8Size_pos
        exact ⟨c.utf8Size + byteWidth front - 1, by rw [byteWidth_cons]; omega⟩
      have hrest : left + 1 - c.utf8Size = byteWidth front := by
        rw [byteWidth_cons] at hleft
        omega
      have hfits : c.utf8Size ≤ left + 1 := by
        rw [byteWidth_cons] at hleft
        omega
      rw [hleft, List.cons_append, charsBefore?.go, if_pos hfits, hrest, ih, List.length_cons]
      congr 1
      omega

/-- The characters before the offset behind the first `n` characters are these. -/
theorem charsBefore?_byteWidth_take {n : Nat} {cs : List Char} (h : n ≤ cs.length) :
    charsBefore? (byteWidth (cs.take n)) cs = some n := by
  have hgo := charsBefore?_go_byteWidth (cs.take n) (cs.drop n) 0
  rw [List.take_append_drop, List.length_take_of_le h, Nat.zero_add] at hgo
  exact hgo

end Text

/-! ## §2. The character over the caret. -/

namespace Excerpt

/-- **The caret stands under the place**, wherever the line was cut. -/
theorem getElem?_caret_around (place : Nat) (shown : List Char) :
    (around place shown).line[(around place shown).caret]? = shown[place]?.map flatten := by
  have hcaret : (around place shown).caret = min place reach := rfl
  have hplace : place - reach + min place reach = place := by omega
  rw [hcaret, around, List.getElem?_map, List.getElem?_take_of_lt (by omega), List.getElem?_drop,
    hplace]

/-- An excerpt at the offset behind the first characters is around the next. -/
theorem atOffset_byteWidth_take {place : Nat} {shown : String} (h : place ≤ shown.toList.length) :
    atOffset (Text.byteWidth (shown.toList.take place)) shown = around place shown.toList := by
  unfold atOffset
  rw [Text.charsBefore?_byteWidth_take h]
  rfl

end Excerpt

/-! ## §3. Reports about brackets. -/

namespace Report

/-- What the report of a bracket says, the place apart. -/
def summary (name : Option String) : Fault → String
  | .unmatchedLoopEnd _ => named name "Runtime error: unmatched loop end ')'"
  | .loopDepthExceeded _ limit => named name s!"Runtime error: loop nesting exceeds {limit} levels"
  | fault => named name fault.message

/-- The report of a bracket is about the token of its fault. -/
theorem fault_of_bracket {f : Fault} {i : Nat} {c : Char} (h : f.bracket? = some (i, c))
    (name : Option String) (shown : String) (p : Program) :
    fault name shown p f = atToken (summary name f) shown p i := by
  cases f with
  | unmatchedLoopEnd index =>
      obtain rfl : index = i := congrArg Prod.fst (Option.some.inj h)
      rfl
  | loopDepthExceeded index limit =>
      obtain rfl : index = i := congrArg Prod.fst (Option.some.inj h)
      rfl
  | stepLimitExceeded limit => cases h
  | canceled => cases h
  | tapeTooLarge size => cases h

theorem atToken_of_span {p : Program} {i : Nat} {sp : Span} (h : p.span? i = some sp)
    (summary shown : String) : atToken summary shown p i
      = s!"{summary} at token {i}\n" ++ (Excerpt.atOffset sp.start shown).render := by
  rw [atToken, h]

/-- **The report of the first violation points at the first bracket that breaks
the nesting.**  The line under the summary is cut from the source around that
bracket, and the caret stands under it. -/
theorem fault_points_at_firstBreak {source : String} {limit : Option Nat} {i : Nat} {f : Fault}
    (h : (Program.ofSource source).FirstViolation limit i f) (name : Option String) :
    ∃ place c x, f.bracket? = some (i, c) ∧ Text.FirstBreak source.toList limit place c ∧
      x = Excerpt.around place source.toList ∧ x.line[x.caret]? = some c ∧
      fault name source (.ofSource source) f
        = s!"{summary name f} at token {i}\n" ++ ("  " ++ String.ofList x.line ++ "\n  "
            ++ Text.spaces x.caret ++ "^\n") := by
  obtain ⟨place, c, sp, hf, hspan, hstart, hfirst⟩ := h.firstBreak
  obtain ⟨l, -, hat⟩ := Program.letter_of_breaksNesting hfirst.breaks
  have hplace : place ≤ source.toList.length :=
    Nat.le_of_lt (List.getElem?_eq_some_iff.mp hat).1
  refine ⟨place, c, _, hf, hfirst, rfl, ?_, ?_⟩
  · -- A bracket is shown as it is.
    have hflat : Excerpt.flatten c = c := by
      cases hfirst.breaks with
      | closing closes none_open => decide
      | opening opens has_limit too_deep => decide
    rw [Excerpt.getElem?_caret_around, hat, Option.map_some, hflat]
  · rw [fault_of_bracket hf, atToken_of_span hspan, hstart,
      Excerpt.atOffset_byteWidth_take hplace]
    rfl

end Report

end Prairie
