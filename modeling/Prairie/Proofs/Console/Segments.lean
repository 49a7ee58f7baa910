/-
  Prairie.Proofs.Console.Segments
  ───────────────────────────────
  **HIGHLIGHTING LOSES NO TEXT AND MISLABELS NO TOKEN.**

  A line is cut along the spans of its tokens, with a cursor at the end of the
  last span cut out.  The lexemes of a line tile it (`Tiles`), so every cut
  falls between two characters and takes just one piece of the row:

      blanks  text₀  blanks  text₁  …  blanks  textₙ  rest
         ↓      ↓                        ↓       ↓      ↓
      pending role₀    …              pending  roleₙ  pending

  where a piece without text makes no segment.  What is pending is blank, or
  it is the rest of the line, which holds no literal.
-/
import Mathlib.Data.List.Forall2
import Prairie.Console.Highlight
import Prairie.Proofs.Source.Tiling

namespace Prairie

open Text (byteWidth Between)

variable {cs gap : List Char} {xs : List Lexeme} {offset : Nat}

/-! ## §1. Cuts that fall between characters. -/

theorem Text.splitAtByte_go_byteWidth (before cs ds : List Char) :
    splitAtByte.go (byteWidth cs) before (cs ++ ds) = (before.reverse ++ cs, ds) := by
  induction cs generalizing before with
  | nil => rw [byteWidth_nil, splitAtByte.go, List.append_nil, List.nil_append]
  | cons c cs ih =>
      -- A character is at least one byte wide, so the cut is not reached.
      obtain ⟨left, hleft⟩ := Nat.exists_eq_add_one_of_ne_zero
        (Nat.ne_of_gt (byteWidth_pos (List.cons_ne_nil c cs)))
      have hrest : left + 1 - c.utf8Size = byteWidth cs := by
        rw [← hleft, byteWidth_cons, Nat.add_sub_cancel_left]
      rw [hleft, List.cons_append, splitAtByte.go, hrest, ih, List.reverse_cons, List.append_assoc,
        List.singleton_append]

/-- **A cut behind whole characters falls there.** -/
theorem Text.splitAtByte_byteWidth (cs ds : List Char) :
    splitAtByte (byteWidth cs) (cs ++ ds) = (cs, ds) :=
  splitAtByte_go_byteWidth [] cs ds

namespace Console

/-! ## §2. Segments. -/

theorem Role.ofToken_ne_pending (t : Token) : Role.ofToken t ≠ .pending := by
  rcases t with text | ((_ | _) | _ | _ | _) <;> exact fun h => Role.noConfusion h

/-- Roles are told apart by their styles. -/
theorem Role.eq_of_style {r s : Role} (h : r.style = s.style) : r = s := by
  cases r <;> cases s <;> first | rfl | exact absurd h (by decide)

/-- The segment of a token. -/
def Segment.ofToken (t : Token) : Segment := ⟨Role.ofToken t, t.text⟩

theorem Segment.pending_of_ne_nil (h : gap ≠ []) :
    pending gap = [⟨.pending, String.ofList gap⟩] := by
  rw [pending, if_neg]
  rwa [List.isEmpty_iff]

theorem Segment.flatMap_pending (gap : List Char) :
    (pending gap).flatMap (fun s => s.text.toList) = gap := by
  cases gap with
  | nil => rfl
  | cons c gap =>
      rw [pending_of_ne_nil (List.cons_ne_nil c gap), List.flatMap_singleton, String.toList_ofList]

namespace Highlight

/-- The segments of a line that begins with blanks and a token. -/
theorem cut_lexeme (offset : Nat) (gap behind : List Char) (t : Token) (xs : List Lexeme) :
    cut offset (gap ++ t.text.toList ++ behind)
        (⟨t, some ⟨offset + byteWidth gap, offset + byteWidth (gap ++ t.text.toList)⟩⟩ :: xs)
      = Segment.pending gap
        ++ .ofToken t :: cut (offset + byteWidth (gap ++ t.text.toList)) behind xs := by
  have hgap : offset + byteWidth gap - offset = byteWidth gap := Nat.add_sub_cancel_left _ _
  have htext : offset + byteWidth (gap ++ t.text.toList) - (offset + byteWidth gap)
      = byteWidth t.text.toList := by
    rw [Text.byteWidth_append]
    omega
  rw [cut, hgap, htext, List.append_assoc, Text.splitAtByte_byteWidth]
  dsimp only
  rw [Text.splitAtByte_byteWidth]
  dsimp only
  rw [String.ofList_toList]
  rfl

/-! ## §3. What the segments are. -/

/-- No segment is empty. -/
theorem text_ne_of_tiles (h : Tiles offset cs xs) : ∀ s ∈ cut offset cs xs, s.text.toList ≠ [] := by
  have hpending : ∀ gap, ∀ s ∈ Segment.pending gap, s.text.toList ≠ [] := by
    intro gap s hs
    cases gap with
    | nil => cases hs
    | cons c gap =>
        rw [Segment.pending_of_ne_nil (List.cons_ne_nil c gap), List.mem_singleton] at hs
        rw [hs, String.toList_ofList]
        exact List.cons_ne_nil c gap
  induction h with
  | rest free => exact hpending _
  | lexeme blank text_ne comment_free tiles ih =>
      rw [cut_lexeme]
      intro s hs
      rcases List.mem_append.mp hs with hs | hs
      · exact hpending _ s hs
      · rcases List.mem_cons.mp hs with rfl | hs
        · exact text_ne
        · exact ih s hs

/-- **The segments together are the line.** -/
theorem flatMap_cut (h : Tiles offset cs xs) :
    (cut offset cs xs).flatMap (fun s => s.text.toList) = cs := by
  induction h with
  | rest free => exact Segment.flatMap_pending _
  | lexeme blank text_ne comment_free tiles ih =>
      rw [cut_lexeme, List.flatMap_append, Segment.flatMap_pending, List.flatMap_cons, ih,
        List.append_assoc]
      rfl

/-- **The segments that are not pending are those of the tokens**, in order. -/
theorem filter_cut (h : Tiles offset cs xs) :
    (cut offset cs xs).filter (fun s => s.role ≠ .pending)
      = xs.map fun x => Segment.ofToken x.token := by
  have hpending : ∀ gap, (Segment.pending gap).filter (fun s => s.role ≠ .pending) = [] := by
    intro gap
    cases gap with
    | nil => rfl
    | cons c gap => rfl
  induction h with
  | rest free => exact hpending _
  | @lexeme _ _ _ t xs blank text_ne comment_free tiles ih =>
      rw [cut_lexeme, List.filter_append, hpending, List.nil_append, List.filter_cons_of_pos, ih,
        List.map_cons]
      exact decide_eq_true (Role.ofToken_ne_pending t)

/-- What is pending in a row of segments is blank, or it is the last segment and
holds no literal. -/
def PendingBlank (segments : List Segment) : Prop :=
  ∀ k s, segments[k]? = some s → s.role = .pending →
    s.text.toList.all Text.isBlank = true ∨ (k + 1 = segments.length ∧ Free s.text.toList)

theorem PendingBlank.cons {s : Segment} {segments : List Segment} (h : PendingBlank segments)
    (hs : s.role = .pending → s.text.toList.all Text.isBlank = true) :
    PendingBlank (s :: segments) := by
  intro k s' hk hrole
  cases k with
  | zero =>
      cases hk
      exact .inl (hs hrole)
  | succ k =>
      rcases h k s' hk hrole with hblank | ⟨hlast, hfree⟩
      · exact .inl hblank
      · exact .inr ⟨by rw [List.length_cons, hlast], hfree⟩

/-- **What is pending is blank, the rest of the line apart.** -/
theorem pendingBlank_cut (h : Tiles offset cs xs) : PendingBlank (cut offset cs xs) := by
  induction h with
  | @rest _ cs free =>
      intro k s hk hrole
      cases cs with
      | nil => cases hk
      | cons c cs =>
          rw [cut, Segment.pending_of_ne_nil (List.cons_ne_nil c cs)] at hk ⊢
          cases k with
          | zero =>
              cases hk
              exact .inr ⟨rfl, by rw [String.toList_ofList]; exact free⟩
          | succ k => cases hk
  | @lexeme _ gap _ t _ blank text_ne comment_free tiles ih =>
      rw [cut_lexeme]
      have htoken := ih.cons (s := .ofToken t) fun hrole => absurd hrole (Role.ofToken_ne_pending t)
      cases gap with
      | nil => exact htoken
      | cons c gap =>
          rw [Segment.pending_of_ne_nil (List.cons_ne_nil c gap)]
          refine htoken.cons fun _ => ?_
          rw [String.toList_ofList]
          exact blank

/-! ## §4. Where the segments stand. -/

/-- The role and the bytes of each segment of a line of `stop` bytes, from the
cursor on: what is between the cursor and the next span, if anything is, then
the span, and at last what is behind all spans. -/
def ranges (cursor stop : Nat) : List Lexeme → List (Role × Span)
  | [] => if cursor < stop then [(.pending, ⟨cursor, stop⟩)] else []
  | ⟨_, none⟩ :: xs => ranges cursor stop xs
  | ⟨t, some sp⟩ :: xs =>
      (if cursor < sp.start then [(.pending, ⟨cursor, sp.start⟩)] else []) ++
        (Role.ofToken t, sp) :: ranges sp.stop stop xs

/-- A segment has the role and is the text at these bytes of the line. -/
def Stands (line : List Char) (range : Role × Span) (s : Segment) : Prop :=
  s.role = range.1 ∧ Between line range.2.start range.2.stop s.text.toList

/-- A pending text stands where it is, if it is there at all. -/
theorem stands_pending (pre gap behind : List Char) :
    List.Forall₂ (Stands (pre ++ gap ++ behind))
      (if byteWidth pre < byteWidth pre + byteWidth gap then
        [(.pending, ⟨byteWidth pre, byteWidth pre + byteWidth gap⟩)] else [])
      (Segment.pending gap) := by
  cases gap with
  | nil =>
      rw [if_neg (by rw [Text.byteWidth_nil]; omega)]
      exact .nil
  | cons c gap =>
      have hpos := Text.byteWidth_pos (List.cons_ne_nil c gap)
      rw [if_pos (by omega), Segment.pending_of_ne_nil (List.cons_ne_nil c gap)]
      refine .cons ⟨rfl, ?_⟩ .nil
      rw [String.toList_ofList]
      exact ⟨pre, behind, rfl, rfl, rfl⟩

/-- **Every segment stands in the line where it was cut out.** -/
theorem stands_cut (h : Tiles offset cs xs) (pre : List Char) (hpre : byteWidth pre = offset) :
    List.Forall₂ (Stands (pre ++ cs)) (ranges offset (byteWidth (pre ++ cs)) xs)
      (cut offset cs xs) := by
  -- `pre` is what the cursor has passed, which grows from token to token.
  induction h generalizing pre with
  | @rest _ cs free =>
      subst hpre
      have hrest := stands_pending pre cs []
      rw [List.append_nil] at hrest
      rw [Text.byteWidth_append]
      exact hrest
  | @lexeme offset gap behind t xs blank text_ne comment_free tiles ih =>
      subst hpre
      have hassoc : pre ++ (gap ++ t.text.toList ++ behind)
          = pre ++ (gap ++ t.text.toList) ++ behind := (List.append_assoc _ _ _).symm
      rw [cut_lexeme, ranges]
      refine List.rel_append ?_ (.cons ⟨rfl, ?_⟩ ?_)
      · have hgap := stands_pending pre gap (t.text.toList ++ behind)
        rw [List.append_assoc, ← List.append_assoc gap] at hgap
        exact hgap
      · refine ⟨pre ++ gap, behind, ?_, Text.byteWidth_append _ _, ?_⟩
        · rw [hassoc, ← List.append_assoc pre gap]
          rfl
        · show byteWidth (pre ++ gap) + byteWidth t.text.toList
            = byteWidth pre + byteWidth (gap ++ t.text.toList)
          rw [← Text.byteWidth_append, ← Text.byteWidth_append, List.append_assoc]
      · rw [hassoc]
        exact ih _ (Text.byteWidth_append _ _)

/-- What is cut out at a span is what is not pending. -/
theorem filter_ranges (cursor stop : Nat) (xs : List Lexeme) :
    (ranges cursor stop xs).filter (fun r => r.1 ≠ .pending)
      = xs.filterMap fun x => x.span.map (Role.ofToken x.token, ·) := by
  induction xs generalizing cursor with
  | nil =>
      unfold ranges
      split
      · rfl
      · rfl
  | cons x xs ih =>
      obtain ⟨t, _ | sp⟩ := x
      · rw [ranges, ih]
        rfl
      · rw [ranges, List.filter_append, List.filter_cons_of_pos, ih]
        · split
          · rfl
          · rfl
        · exact decide_eq_true (Role.ofToken_ne_pending t)

/-- The bytes from `start` to `stop`, one range behind the other and none of them
empty. -/
inductive EndToEnd : Nat → Nat → List (Role × Span) → Prop where
  | done {stop : Nat} : EndToEnd stop stop []
  | next {role : Role} {start mid stop : Nat} {rest : List (Role × Span)} (ahead : start < mid)
      (behind : EndToEnd mid stop rest) : EndToEnd start stop ((role, ⟨start, mid⟩) :: rest)

/-- A pending range, unless it is empty, in front of others. -/
theorem EndToEnd.pending {start mid stop : Nat} {rest : List (Role × Span)}
    (h : EndToEnd mid stop rest) (hle : start ≤ mid) :
    EndToEnd start stop
      ((if start < mid then [(.pending, ⟨start, mid⟩)] else []) ++ rest) := by
  split
  next hlt => exact .next hlt h
  next hnot =>
      obtain rfl : start = mid := by omega
      exact h

/-- **The cursor goes from cut to cut and leaves nothing out.** -/
theorem endToEnd_ranges (h : Tiles offset cs xs) :
    EndToEnd offset (offset + byteWidth cs) (ranges offset (offset + byteWidth cs) xs) := by
  induction h with
  | @rest offset cs free =>
      have hrest := EndToEnd.pending .done (Nat.le_add_right offset (byteWidth cs))
      rw [List.append_nil] at hrest
      exact hrest
  | @lexeme offset gap behind t xs blank text_ne comment_free tiles ih =>
      have hpos := Text.byteWidth_pos text_ne
      have hstop : offset + byteWidth (gap ++ t.text.toList ++ behind)
          = offset + byteWidth (gap ++ t.text.toList) + byteWidth behind := by
        rw [Text.byteWidth_append _ behind, Nat.add_assoc]
      rw [hstop, ranges]
      refine EndToEnd.pending (.next ?_ ih) (Nat.le_add_right _ _)
      show offset + byteWidth gap < offset + byteWidth (gap ++ t.text.toList)
      rw [Text.byteWidth_append]
      omega

end Highlight

end Console

/-! ## §5. Whole lines. -/

open Console Highlight in
/-- **HIGHLIGHTING LOSES NO TEXT AND MISLABELS NO TOKEN.**  The segments of a line
are cut out of its bytes at ranges that go from its start to its end, one behind
the other and none of them empty, and no cut is inside a character.  So no
segment is empty, and all together they are the line.

The ranges that are not pending are the spans of the tokens, and the segments
that are not pending are, in order, one for each token, with its text and the
role of its kind, and no two roles have the same style.  What is pending is
blank, or it is the last segment and holds no literal. -/
theorem segments_cover_line (line : String) :
    EndToEnd 0 line.utf8ByteSize
      (ranges 0 line.utf8ByteSize (Program.ofSource line).lexemes.toList) ∧
    List.Forall₂ (fun range s => s.role = range.1 ∧
        Text.Sliced line range.2.start range.2.stop s.text)
      (ranges 0 line.utf8ByteSize (Program.ofSource line).lexemes.toList) (segments line) ∧
    (∀ s ∈ segments line, s.text ≠ "") ∧
    String.join ((segments line).map Segment.text) = line ∧
    (ranges 0 line.utf8ByteSize (Program.ofSource line).lexemes.toList).filter
        (fun range => range.1 ≠ .pending)
      = (Program.ofSource line).lexemes.toList.filterMap
          (fun x => x.span.map (Role.ofToken x.token, ·)) ∧
    (segments line).filter (fun s => s.role ≠ .pending)
      = (Program.ofSource line).tokens.map (fun t => ⟨Role.ofToken t, t.text⟩) ∧
    (∀ r r' : Role, r.style = r'.style → r = r') ∧
    (∀ k s, (segments line)[k]? = some s → s.role = .pending →
      s.text.toList.all Text.isBlank = true ∨
        (k + 1 = (segments line).length ∧ Free s.text.toList)) := by
  have htiles : Tiles 0 line.toList (Program.ofSource line).lexemes.toList :=
    tiles_scan line.toList 0
  have hsize := Text.byteWidth_toList line
  refine ⟨?_, ?_, ?_, ?_, filter_ranges _ _ _, ?_, fun _ _ => Role.eq_of_style,
    pendingBlank_cut htiles⟩
  · have hends := endToEnd_ranges htiles
    rwa [Nat.zero_add, hsize] at hends
  · have hstands := stands_cut htiles [] rfl
    rw [List.nil_append, hsize] at hstands
    refine hstands.imp fun range s ⟨hrole, hbetween⟩ => ⟨hrole, ?_⟩
    rw [← String.ofList_toList (s := s.text)]
    exact hbetween.sliced
  · intro s hs hempty
    exact text_ne_of_tiles htiles s hs (String.toList_eq_nil_iff.mpr hempty)
  · rw [← String.toList_inj, String.toList_join, List.flatMap_map]
    exact flatMap_cut htiles
  · rw [Program.tokens, List.map_map]
    exact filter_cut htiles

/-- Wide letters and wide blanks, a literal right behind another one, and text
that is never finished. -/
def wideLine : String := "\u3000é .Buffalo\u2003( buff "

open Console Highlight in
theorem segments_cover_line_wideLine :
    segments wideLine
      = [⟨.pending, "\u3000"⟩, ⟨.comment, "é"⟩, ⟨.pending, " "⟩, ⟨.output, "."⟩,
         ⟨.wordUpper, "Buffalo"⟩, ⟨.pending, "\u2003"⟩, ⟨.bracket, "("⟩, ⟨.pending, " buff "⟩] ∧
    Segment.text ⟨.comment, "é"⟩ ≠ "" ∧
    String.join ((segments wideLine).map Segment.text) = wideLine ∧
    (segments wideLine)[7]? = some ⟨.pending, " buff "⟩ ∧
    (" buff ".toList.all Text.isBlank = true ∨
      (7 + 1 = (segments wideLine).length ∧ Free " buff ".toList)) := by
  have hsegments : segments wideLine
      = [⟨.pending, "\u3000"⟩, ⟨.comment, "é"⟩, ⟨.pending, " "⟩, ⟨.output, "."⟩,
         ⟨.wordUpper, "Buffalo"⟩, ⟨.pending, "\u2003"⟩, ⟨.bracket, "("⟩, ⟨.pending, " buff "⟩] := by
    decide +kernel
  obtain ⟨-, -, hne, hjoin, -, -, -, hpending⟩ := segments_cover_line wideLine
  have hlast : (segments wideLine)[7]? = some ⟨.pending, " buff "⟩ := by
    rw [hsegments]
    rfl
  refine ⟨hsegments, hne ⟨.comment, "é"⟩ ?_, hjoin, hlast, hpending 7 _ hlast rfl⟩
  rw [hsegments]
  decide

end Prairie
