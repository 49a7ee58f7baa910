/-
  Prairie.Text.Cut
  ────────────────
  **CUTTING A TEXT AT A MARK.**

  A name and its value are written with a mark between them.  The text is cut
  at the FIRST mark, so the value may hold further ones:

      cutAt m (name ++ m :: value) = (name, some value)     when m ∉ name

  A text without the mark is all name.
-/

namespace Prairie.Text

/-- The part before the first `mark`, and the part behind it if there is one. -/
def cutAt (mark : Char) (cs : List Char) : List Char × Option (List Char) :=
  (cs.takeWhile (· ≠ mark), (cs.dropWhile (· ≠ mark)).tail?)

/-- A text that does not hold the mark is left whole. -/
theorem cutAt_of_not_mem {mark : Char} {cs : List Char} (h : mark ∉ cs) :
    cutAt mark cs = (cs, none) := by
  induction cs with
  | nil => rfl
  | cons c cs ih =>
      simp only [List.mem_cons, not_or] at h
      simpa [cutAt, Ne.symm h.1] using ih h.2

/-- The cut is at the first mark. -/
theorem cutAt_append {mark : Char} {name : List Char} (h : mark ∉ name) (value : List Char) :
    cutAt mark (name ++ mark :: value) = (name, some value) := by
  induction name with
  | nil => simp [cutAt]
  | cons c name ih =>
      simp only [List.mem_cons, not_or] at h
      simpa [cutAt, Ne.symm h.1] using ih h.2

end Prairie.Text
