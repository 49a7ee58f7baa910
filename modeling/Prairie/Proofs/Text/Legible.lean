/-
  Prairie.Proofs.Text.Legible
  ───────────────────────────
  **WRITING THAT CAN BE READ BACK.**

  What is written never stands alone: other text follows it, and whoever reads
  it has to tell what was written and where it ends.  Writing is LEGIBLE in
  front of the texts that end it if there is one way only to do so:

      write a ++ x = write b ++ y   →   a = b  and  x = y

  There are two sources of it.  A text of characters of one class ends where
  a character of another class stands (`Legible.of_run`); so it is with blanks
  and with numerals, in a column or not.  And a row of legible items is
  legible if what ends the row is never taken for one more item
  (`Legible.flatMap`); so it is with texts that have numerals in them.  Where
  each row has a line of its own, the rows can be told without reading them
  (`lines_flatMap`).
-/
import Prairie.Text.Column
import Prairie.Text.Lines

namespace Prairie.Text

variable {α : Type} {p : Char → Bool} {Ends Last : List Char → Prop} {write : α → List Char}
  {xs ys x y : List Char}

/-! ## §1. Legible writing. -/

/-- In front of texts that end it, what is written tells what it is and where
it ends. -/
def Legible (write : α → List Char) (Ends : List Char → Prop) : Prop :=
  ∀ a b x y, Ends x → Ends y → write a ++ x = write b ++ y → a = b ∧ x = y

/-- A text does not go on with a character of the class `p`. -/
def Stops (p : Char → Bool) (cs : List Char) : Prop := ∀ c ∈ cs.head?, p c = false

theorem stops_cons {c : Char} : Stops p (c :: xs) ↔ p c = false := by
  simp [Stops]

theorem takeWhile_of_stops (hx : Stops p x) : x.takeWhile p = [] := by
  cases x with
  | nil => rfl
  | cons c x => rw [List.takeWhile_cons_of_neg (by simp [stops_cons.mp hx])]

/-- **Texts of one class end where the class ends.** -/
theorem append_inj_of_stops (hxs : ∀ c ∈ xs, p c = true) (hys : ∀ c ∈ ys, p c = true)
    (hx : Stops p x) (hy : Stops p y) (h : xs ++ x = ys ++ y) : xs = ys ∧ x = y := by
  have htake := congrArg (List.takeWhile p) h
  rw [List.takeWhile_append_of_pos hxs, List.takeWhile_append_of_pos hys, takeWhile_of_stops hx,
    takeWhile_of_stops hy, List.append_nil, List.append_nil] at htake
  subst htake
  exact ⟨rfl, List.append_cancel_left h⟩

/-- Different texts of one class are legible in front of the other classes. -/
theorem Legible.of_run (hinj : ∀ a b, write a = write b → a = b)
    (hp : ∀ a, ∀ c ∈ write a, p c = true) : Legible write (Stops p) := by
  intro a b x y hx hy h
  obtain ⟨hwrite, hrest⟩ := append_inj_of_stops (hp a) (hp b) hx hy h
  exact ⟨hinj a b hwrite, hrest⟩

/-- **A row of legible items is legible**, if another item may follow an item
and what ends the row is never taken for one. -/
theorem Legible.flatMap (hwrite : Legible write Ends) (hnext : ∀ a x, Ends (write a ++ x))
    (hlast : ∀ x, Last x → Ends x) (hend : ∀ a x, ¬ Last (write a ++ x)) :
    Legible (fun as : List α => as.flatMap write) Last := by
  -- Whatever follows an item, more items or the end of the row, ends it.
  have hends : ∀ (as : List α) x, Last x → Ends (as.flatMap write ++ x) := by
    intro as x hx
    cases as with
    | nil => exact hlast x hx
    | cons a as =>
        rw [List.flatMap_cons, List.append_assoc]
        exact hnext a _
  show ∀ as bs : List α, ∀ x y, Last x → Last y →
    as.flatMap write ++ x = bs.flatMap write ++ y → as = bs ∧ x = y
  intro as
  induction as with
  | nil =>
      intro bs x y hx hy h
      cases bs with
      | nil => exact ⟨rfl, h⟩
      | cons b bs =>
          rw [List.flatMap_cons, List.append_assoc] at h
          have hrow : x = write b ++ (bs.flatMap write ++ y) := h
          exact absurd (hrow ▸ hx) (hend b _)
  | cons a as ih =>
      intro bs x y hx hy h
      cases bs with
      | nil =>
          rw [List.flatMap_cons, List.append_assoc] at h
          have hrow : write a ++ (as.flatMap write ++ x) = y := h
          exact absurd (hrow ▸ hy) (hend a _)
      | cons b bs =>
          rw [List.flatMap_cons, List.flatMap_cons, List.append_assoc, List.append_assoc] at h
          obtain ⟨rfl, hrest⟩ := hwrite a b _ _ (hends as x hx) (hends bs y hy) h
          obtain ⟨rfl, hxy⟩ := ih bs x y hx hy hrest
          exact ⟨rfl, hxy⟩

/-! ## §2. Digits. -/

theorem digitChar_inj : ∀ m < 16, ∀ n < 16, m.digitChar = n.digitChar → m = n := by decide

/-- The last digit, and those before it if there are any. -/
theorem toDigits_eq {b : Nat} (hb : 1 < b) (n : Nat) : Nat.toDigits b n
    = (if n < b then [] else Nat.toDigits b (n / b)) ++ [(n % b).digitChar] := by
  rw [Nat.toDigits_eq_if hb]
  split
  next hlt => rw [Nat.mod_eq_of_lt hlt, List.nil_append]
  next => rfl

/-- **Digits tell the number**, in every base that has digits enough. -/
theorem toDigits_inj {b : Nat} (hb : 1 < b) (hb' : b ≤ 16) {m n : Nat}
    (h : Nat.toDigits b m = Nat.toDigits b n) : m = n := by
  induction m using Nat.strongRecOn generalizing n with
  | ind m ih =>
      rw [toDigits_eq hb m, toDigits_eq hb n] at h
      obtain ⟨hfront, hlast⟩ := List.append_inj' h rfl
      have hmod : m % b = n % b :=
        digitChar_inj _ (Nat.lt_of_lt_of_le (Nat.mod_lt m (by omega)) hb') _
          (Nat.lt_of_lt_of_le (Nat.mod_lt n (by omega)) hb') (List.singleton_inj.mp hlast)
      -- There are digits before the last one on both sides, or on neither.
      by_cases hm : m < b <;> by_cases hn : n < b
      · rw [← Nat.mod_eq_of_lt hm, hmod, Nat.mod_eq_of_lt hn]
      · rw [if_pos hm, if_neg hn] at hfront
        exact absurd hfront.symm Nat.toDigits_ne_nil
      · rw [if_neg hm, if_pos hn] at hfront
        exact absurd hfront Nat.toDigits_ne_nil
      · rw [if_neg hm, if_neg hn] at hfront
        have hdiv : m / b = n / b := ih _ (Nat.div_lt_self (by omega) hb) hfront
        rw [← Nat.div_add_mod m b, hdiv, hmod, Nat.div_add_mod]

/-! ## §3. Numerals and columns. -/

theorem toList_toString (n : Nat) : (toString n).toList = Nat.toDigits 10 n := by
  rw [Nat.toString_eq_ofList_toDigits, String.toList_ofList]

theorem isDigit_of_mem_toString {n : Nat} {c : Char} (hc : c ∈ (toString n).toList) :
    c.isDigit = true := by
  rw [toList_toString] at hc
  exact Nat.isDigit_of_mem_toDigits (by decide) (by decide) hc

/-- A numeral is never empty, so it begins with a digit. -/
theorem exists_digit_toString (n : Nat) :
    ∃ d ds, (toString n).toList = d :: ds ∧ d.isDigit = true := by
  cases hcs : (toString n).toList with
  | nil =>
      rw [toList_toString] at hcs
      exact absurd hcs Nat.toDigits_ne_nil
  | cons d ds => exact ⟨d, ds, rfl, isDigit_of_mem_toString (by rw [hcs]; exact List.mem_cons_self)⟩

/-- **Numerals are legible** where no digit follows. -/
theorem legible_toString : Legible (fun n : Nat => (toString n).toList) (Stops Char.isDigit) := by
  refine .of_run (fun m n h => ?_) fun n c hc => isDigit_of_mem_toString hc
  simp only [toList_toString] at h
  exact toDigits_inj (by decide) (by decide) h

theorem toList_spaces (n : Nat) : (spaces n).toList = List.replicate n ' ' := String.toList_ofList

theorem eq_of_mem_spaces {n : Nat} {c : Char} (hc : c ∈ (spaces n).toList) : c = ' ' := by
  rw [toList_spaces] at hc
  exact List.eq_of_mem_replicate hc

/-- Blanks are legible where no blank follows: their number can be told. -/
theorem legible_spaces : Legible (fun n : Nat => (spaces n).toList) (Stops (· = ' ')) := by
  refine .of_run (fun m n h => ?_) fun n c hc => ?_
  · simp only [toList_spaces] at h
    simpa using congrArg List.length h
  · exact decide_eq_true (eq_of_mem_spaces hc)

theorem toList_flushLeft (width : Nat) (cell : String) : (flushLeft width cell).toList
    = cell.toList ++ (spaces (width - cell.length)).toList := String.toList_append

theorem toList_flushRight (width : Nat) (cell : String) : (flushRight width cell).toList
    = (spaces (width - cell.length)).toList ++ cell.toList := String.toList_append

/-- There is nothing but blanks and digits in a column of numerals. -/
theorem blank_or_digit_of_mem_flushLeft {width n : Nat} {c : Char}
    (hc : c ∈ (flushLeft width (toString n)).toList) : c = ' ' ∨ c.isDigit = true := by
  rw [toList_flushLeft] at hc
  rcases List.mem_append.mp hc with hc | hc
  · exact .inr (isDigit_of_mem_toString hc)
  · exact .inl (eq_of_mem_spaces hc)

theorem blank_or_digit_of_mem_flushRight {width n : Nat} {c : Char}
    (hc : c ∈ (flushRight width (toString n)).toList) : c = ' ' ∨ c.isDigit = true := by
  rw [toList_flushRight] at hc
  rcases List.mem_append.mp hc with hc | hc
  · exact .inl (eq_of_mem_spaces hc)
  · exact .inr (isDigit_of_mem_toString hc)

/-- Blanks may stand in front of what ends a text of a class that has no blank. -/
theorem Stops.spaces_append (hx : Stops p x) (hblank : p ' ' = false) (n : Nat) :
    Stops p ((spaces n).toList ++ x) := by
  rw [toList_spaces]
  cases n with
  | zero => exact hx
  | succ n => exact stops_cons.mpr hblank

/-- **Numerals at the left of a column are legible.**  The numeral tells how
many blanks follow it. -/
theorem legible_flushLeft (width : Nat) :
    Legible (fun n : Nat => (flushLeft width (toString n)).toList) (Stops Char.isDigit) := by
  intro m n x y hx hy h
  simp only [toList_flushLeft, List.append_assoc] at h
  obtain ⟨rfl, hrest⟩ := legible_toString m n _ _ (hx.spaces_append (by decide) _)
    (hy.spaces_append (by decide) _) h
  exact ⟨rfl, List.append_cancel_left hrest⟩

/-- **Numerals at the right of a column are legible.**  The blanks end at the
first digit. -/
theorem legible_flushRight (width : Nat) :
    Legible (fun n : Nat => (flushRight width (toString n)).toList) (Stops Char.isDigit) := by
  have hdigit : ∀ (n : Nat) x, Stops (· = ' ') ((toString n).toList ++ x) := by
    intro n x
    obtain ⟨d, ds, hds, hd⟩ := exists_digit_toString n
    rw [hds]
    refine stops_cons.mpr (decide_eq_false ?_)
    rintro rfl
    exact absurd hd (by decide)
  intro m n x y hx hy h
  simp only [toList_flushRight, List.append_assoc] at h
  obtain ⟨-, hrest⟩ := legible_spaces _ _ _ _ (hdigit m x) (hdigit n y) h
  exact legible_toString m n x y hx hy hrest

/-! ## §4. Texts with numerals. -/

/-- A character of a wording: no digit, and no line feed either. -/
def plain (c : Char) : Bool := !c.isDigit && c != '\n'

/-- A piece of a wording and the numeral behind it. -/
structure Figure where
  lead : String
  number : Nat
  lead_ne : lead.toList ≠ [] := by decide
  plain_lead : lead.toList.all plain = true := by decide

/-- How a figure is written. -/
def Figure.written (f : Figure) : List Char := f.lead.toList ++ (toString f.number).toList

theorem plain_eq_false_of_isDigit {c : Char} (h : c.isDigit = true) : plain c = false := by
  rw [plain, h]
  rfl

theorem isDigit_eq_false_of_plain {c : Char} (h : plain c = true) : c.isDigit = false := by
  rw [plain, Bool.and_eq_true, Bool.not_eq_true'] at h
  exact h.1

/-- A wording goes on up to the next numeral. -/
theorem stops_plain_toString (n : Nat) (x : List Char) :
    Stops plain ((toString n).toList ++ x) := by
  obtain ⟨d, ds, hds, hd⟩ := exists_digit_toString n
  rw [hds]
  exact stops_cons.mpr (plain_eq_false_of_isDigit hd)

/-- **Figures are legible** where no digit follows. -/
theorem legible_figure : Legible Figure.written (Stops Char.isDigit) := by
  rintro ⟨lead, m, hne, hlead⟩ ⟨lead', n, hne', hlead'⟩ x y hx hy h
  simp only [Figure.written, List.append_assoc] at h
  obtain ⟨hsame, hrest⟩ := append_inj_of_stops (List.all_eq_true.mp hlead)
    (List.all_eq_true.mp hlead') (stops_plain_toString m x) (stops_plain_toString n y) h
  obtain ⟨rfl, hxy⟩ := legible_toString m n x y hx hy hrest
  obtain rfl := String.toList_inj.mp hsame
  exact ⟨rfl, hxy⟩

/-- **A wording tells its figures and what stands behind the last of them.** -/
theorem legible_figures :
    Legible (fun fs : List Figure => fs.flatMap Figure.written) fun z => ∀ c ∈ z, plain c = true := by
  refine legible_figure.flatMap (fun f x => ?_) (fun x hx c hc => ?_) fun f x hlast => ?_
  · obtain ⟨c, cs, hcs⟩ := List.exists_cons_of_ne_nil f.lead_ne
    have hc : plain c = true :=
      List.all_eq_true.mp f.plain_lead c (by rw [hcs]; exact List.mem_cons_self)
    rw [Figure.written, hcs]
    exact stops_cons.mpr (isDigit_eq_false_of_plain hc)
  · exact isDigit_eq_false_of_plain (hx c (List.mem_of_mem_head? hc))
  · obtain ⟨d, ds, hds, hd⟩ := exists_digit_toString f.number
    have hmem : d ∈ f.written ++ x := by
      rw [Figure.written, hds]
      simp
    have hplain := hlast d hmem
    rw [plain_eq_false_of_isDigit hd] at hplain
    cases hplain

theorem not_mem_figures (fs : List Figure) : '\n' ∉ fs.flatMap Figure.written := by
  intro hmem
  obtain ⟨f, -, hf⟩ := List.mem_flatMap.mp hmem
  rcases List.mem_append.mp hf with hf | hf
  · exact absurd (List.all_eq_true.mp f.plain_lead _ hf) (by decide)
  · exact absurd (isDigit_of_mem_toString hf) (by decide)

/-! ## §5. Lines. -/

/-- The line that is being read ends at its line feed. -/
theorem lines_go_append {row : List Char} (hrow : '\n' ∉ row) (line cs : List Char) :
    lines.go line (row ++ '\n' :: cs) = (line.reverse ++ row ++ ['\n']) :: lines cs := by
  induction row generalizing line with
  | nil =>
      show lines.go line ('\n' :: cs) = _
      rw [lines.go, if_pos rfl, List.reverse_cons, List.append_nil]
      rfl
  | cons c row ih =>
      obtain ⟨hc, hrow⟩ := not_or.mp (mt List.mem_cons.mpr hrow)
      rw [List.cons_append, lines.go, if_neg (Ne.symm hc), ih hrow, List.reverse_cons]
      simp only [List.append_assoc, List.nil_append, List.cons_append]

/-- **Rows that are put one below the other can be told apart.** -/
theorem lines_flatMap {rows : List (List Char)} (hrows : ∀ row ∈ rows, '\n' ∉ row) :
    lines (rows.flatMap (· ++ ['\n'])) = rows.map (· ++ ['\n']) := by
  induction rows with
  | nil => rfl
  | cons row rows ih =>
      obtain ⟨hrow, hrest⟩ := List.forall_mem_cons.mp hrows
      rw [List.flatMap_cons, List.append_assoc, List.map_cons, ← ih hrest]
      exact lines_go_append hrow [] _

/-- There are as many line feeds as rows. -/
theorem count_flatMap_rows {rows : List (List Char)} (hrows : ∀ row ∈ rows, '\n' ∉ row) :
    (rows.flatMap (· ++ ['\n'])).count '\n' = rows.length := by
  induction rows with
  | nil => rfl
  | cons row rows ih =>
      obtain ⟨hrow, hrest⟩ := List.forall_mem_cons.mp hrows
      rw [List.flatMap_cons, List.count_append, List.count_append, ih hrest,
        List.count_eq_zero_of_not_mem hrow, List.length_cons, List.count_singleton_self]
      omega

end Prairie.Text
