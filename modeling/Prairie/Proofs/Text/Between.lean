/-
  Prairie.Proofs.Text.Between
  ───────────────────────────
  **THE TEXT BETWEEN TWO BYTE OFFSETS.**

  A source is a list of characters and its spans are pairs of byte offsets, so
  a span names a piece of the source only if both of its ends fall BETWEEN
  characters.  `Between cs start stop text` says that they do and which piece
  it is.  What it says about characters is what the bytes say:

      Between s start stop text
        →  start and stop are boundaries of s,  start ≤ stop ≤ bytes of s
           and the bytes of s from start to stop are those of text
-/
import Prairie.Text.Offset

namespace Prairie.Text

/-! ## §1. Widths and bytes. -/

theorem size_utf8Encode (cs : List Char) : cs.utf8Encode.size = byteWidth cs := by
  induction cs with
  | nil => rfl
  | cons c cs ih =>
      rw [List.utf8Encode_cons, ByteArray.size_append, ih, List.utf8Encode_singleton,
        List.size_toByteArray, String.length_utf8EncodeChar]
      rfl

theorem byteWidth_toList (s : String) : byteWidth s.toList = s.utf8ByteSize := by
  rw [← size_utf8Encode, String.utf8Encode_toList, String.size_toByteArray]

theorem byteWidth_pos {cs : List Char} (h : cs ≠ []) : 0 < byteWidth cs := by
  cases cs with
  | nil => exact absurd rfl h
  | cons c cs =>
      have hc := c.utf8Size_pos
      rw [byteWidth_cons]
      omega

/-! ## §2. Pieces of a text. -/

/-- The piece `text` of a text begins at byte offset `start` and ends at byte
offset `stop`, and neither offset is inside a character. -/
def Between (cs : List Char) (start stop : Nat) (text : List Char) : Prop :=
  ∃ before behind, cs = before ++ text ++ behind ∧ byteWidth before = start ∧
    byteWidth before + byteWidth text = stop

namespace Between

variable {cs text : List Char} {s : String} {start stop : Nat}

theorem le (h : Between cs start stop text) : start ≤ stop := by
  obtain ⟨before, behind, -, hstart, hstop⟩ := h
  omega

theorem lt (h : Between cs start stop text) (hne : text ≠ []) : start < stop := by
  obtain ⟨before, behind, -, hstart, hstop⟩ := h
  have hpos := byteWidth_pos hne
  omega

theorem stop_le (h : Between cs start stop text) : stop ≤ byteWidth cs := by
  obtain ⟨before, behind, rfl, hstart, hstop⟩ := h
  rw [byteWidth_append, byteWidth_append]
  omega

/-! ## §3. The same in bytes. -/

/-- What stands behind any characters stands at a boundary. -/
theorem isValid_of_append {before behind : List Char} (h : s.toList = before ++ behind) :
    String.Pos.Raw.IsValid s ⟨byteWidth before⟩ := by
  rw [String.Pos.Raw.isValid_iff_exists_append]
  refine ⟨String.ofList before, String.ofList behind, ?_, ?_⟩
  · rw [← String.ofList_append, ← h, String.ofList_toList]
  · rw [String.rawEndPos, ← byteWidth_toList, String.toList_ofList]

theorem isValid_start (h : Between s.toList start stop text) :
    String.Pos.Raw.IsValid s ⟨start⟩ := by
  obtain ⟨before, behind, hs, rfl, -⟩ := h
  rw [List.append_assoc] at hs
  exact isValid_of_append hs

theorem isValid_stop (h : Between s.toList start stop text) :
    String.Pos.Raw.IsValid s ⟨stop⟩ := by
  obtain ⟨before, behind, hs, rfl, rfl⟩ := h
  rw [← byteWidth_append]
  exact isValid_of_append hs

/-- The bytes between the offsets are those of the piece. -/
theorem extract_toUTF8 (h : Between s.toList start stop text) :
    s.toUTF8.extract start stop = (String.ofList text).toUTF8 := by
  obtain ⟨before, behind, hs, rfl, rfl⟩ := h
  have hbytes : s.toByteArray = before.utf8Encode ++ (text.utf8Encode ++ behind.utf8Encode) := by
    rw [← String.utf8Encode_toList, hs, List.append_assoc, List.utf8Encode_append,
      List.utf8Encode_append]
  rw [String.toUTF8_eq_toByteArray, String.toUTF8_eq_toByteArray, String.toByteArray_ofList, hbytes]
  have hshift := ByteArray.extract_append_size_add' (a := before.utf8Encode)
    (b := text.utf8Encode ++ behind.utf8Encode) (i := 0) (j := byteWidth text)
    (size_utf8Encode before).symm
  rw [Nat.add_zero] at hshift
  rw [hshift, ByteArray.extract_append_eq_left (size_utf8Encode text).symm]

end Between

/-! ## §4. Slices. -/

/-- The bytes of a text from `start` to `stop` can be cut out as a text, and that
is `piece`. -/
structure Sliced (s : String) (start stop : Nat) (piece : String) : Prop where
  valid_start : String.Pos.Raw.IsValid s ⟨start⟩
  valid_stop : String.Pos.Raw.IsValid s ⟨stop⟩
  in_order : start ≤ stop
  in_text : stop ≤ s.utf8ByteSize
  bytes : s.toUTF8.extract start stop = piece.toUTF8

/-- What stands between two offsets can be cut out there. -/
theorem Between.sliced {s : String} {text : List Char} {start stop : Nat}
    (h : Between s.toList start stop text) : Sliced s start stop (String.ofList text) where
  valid_start := h.isValid_start
  valid_stop := h.isValid_stop
  in_order := h.le
  in_text := by
    rw [← byteWidth_toList]
    exact h.stop_le
  bytes := h.extract_toUTF8

end Prairie.Text
