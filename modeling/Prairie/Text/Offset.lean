/-
  Prairie.Text.Offset
  ───────────────────
  **BYTE OFFSETS INTO TEXT.**

  Positions in a source are counted in bytes of its UTF-8 form, while text is
  a list of characters.  This module is the bridge: the width of a list of
  characters, the characters before a byte offset, and the cut of a list at a
  byte offset.

      byteWidth (xs ++ ys) = byteWidth xs + byteWidth ys
      (splitAtByte n cs).1 ++ (splitAtByte n cs).2 = cs
-/

namespace Prairie.Text

/-! ## §1. Width in bytes. -/

/-- The number of bytes a list of characters takes in UTF-8. -/
def byteWidth (cs : List Char) : Nat := cs.foldr (fun c width => c.utf8Size + width) 0

@[simp] theorem byteWidth_nil : byteWidth [] = 0 := rfl

@[simp] theorem byteWidth_cons (c : Char) (cs : List Char) :
    byteWidth (c :: cs) = c.utf8Size + byteWidth cs := rfl

@[simp] theorem byteWidth_append (xs ys : List Char) :
    byteWidth (xs ++ ys) = byteWidth xs + byteWidth ys := by
  induction xs with
  | nil => simp
  | cons c xs ih => simp [ih, Nat.add_assoc]

@[simp] theorem byteWidth_reverse (cs : List Char) :
    byteWidth cs.reverse = byteWidth cs := by
  induction cs with
  | nil => rfl
  | cons c cs ih => simp [ih, Nat.add_comm]

/-! ## §2. Characters before an offset. -/

/-- The number of characters that lie before byte offset `offset`; nothing
when the offset is past the end or inside a character. -/
def charsBefore? (offset : Nat) (cs : List Char) : Option Nat := go offset 0 cs
where
  go : Nat → Nat → List Char → Option Nat
    | 0, count, _ => some count
    | _ + 1, _, [] => none
    | left + 1, count, c :: cs =>
        if c.utf8Size ≤ left + 1 then go (left + 1 - c.utf8Size) (count + 1) cs else none

/-! ## §3. The cut at an offset. -/

/-- Cut a text where `width` bytes have been passed.  A cut that would fall
inside a character is moved behind it, so no character is ever split. -/
def splitAtByte (width : Nat) (cs : List Char) : List Char × List Char := go width [] cs
where
  go : Nat → List Char → List Char → List Char × List Char
    | 0, before, cs => (before.reverse, cs)
    | _ + 1, before, [] => (before.reverse, [])
    | left + 1, before, c :: cs => go (left + 1 - c.utf8Size) (c :: before) cs

theorem splitAtByte_go_append (width : Nat) (before cs : List Char) :
    (splitAtByte.go width before cs).1 ++ (splitAtByte.go width before cs).2
      = before.reverse ++ cs := by
  induction cs generalizing width before with
  | nil => cases width <;> simp [splitAtByte.go]
  | cons c cs ih => cases width <;> simp [splitAtByte.go, ih]

/-- A cut loses nothing. -/
theorem splitAtByte_append (width : Nat) (cs : List Char) :
    (splitAtByte width cs).1 ++ (splitAtByte width cs).2 = cs := by
  simp [splitAtByte, splitAtByte_go_append]

end Prairie.Text
