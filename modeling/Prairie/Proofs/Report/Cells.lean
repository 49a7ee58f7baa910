/-
  Prairie.Proofs.Report.Cells
  ───────────────────────────
  **A DUMP TELLS THE TAPE.**

  The dump of a tape has two lines:

      pointer: 3
      memory: [0]=7 [12]=255

  The second one lists the cells that are not zero, in order, or says that
  there are none.  Both are read from left to right: an index ends at its
  bracket, a value ends at a blank or at the end of the line, and what is said
  of a tape of zeros is never taken for an entry.  The cells that are not
  listed are zeros, so with the length of the tape a dump tells all of it.
-/
import Prairie.Report.Dump
import Prairie.Proofs.Text.Legible

namespace Prairie

open Text (Legible Stops stops_cons)

variable {t u : Tape}

/-! ## §1. The cells that are not zero. -/

namespace Tape

/-- The walk down the tape collects what a walk up would keep. -/
theorem nonzero_go_eq (t : Tape) (i : Nat) (later : List (Nat × UInt8)) :
    nonzero.go t i later
      = ((List.range i).map fun j => (j, t.cell j)).filter (·.2 ≠ 0) ++ later := by
  induction i generalizing later with
  | zero => rfl
  | succ i ih =>
      -- The last cell of the walk up is the first one that the walk down meets.
      rw [nonzero.go, ih, List.range_succ, List.map_append, List.filter_append, List.append_assoc]
      by_cases hzero : t.cell i = 0 <;> simp [hzero]

theorem nonzero_eq (t : Tape) :
    t.nonzero = ((List.range t.size).map fun j => (j, t.cell j)).filter (·.2 ≠ 0) := by
  rw [nonzero, nonzero_go_eq, List.append_nil]

/-- **Every non-zero cell is listed, and nothing else.** -/
theorem mem_nonzero (t : Tape) (i : Nat) (v : UInt8) :
    (i, v) ∈ t.nonzero ↔ t.cells[i]? = some v ∧ v ≠ 0 := by
  rw [nonzero_eq, List.mem_filter, List.mem_map]
  constructor
  · rintro ⟨⟨j, hj, hcell⟩, hv⟩
    obtain ⟨rfl, rfl⟩ := Prod.mk.inj hcell
    refine ⟨?_, of_decide_eq_true hv⟩
    have hlt : j < t.cells.size := List.mem_range.mp hj
    rw [cell, Array.getD_eq_getD_getElem?, Array.getElem?_eq_getElem hlt, Option.getD_some]
  · rintro ⟨hcell, hv⟩
    obtain ⟨hlt, -⟩ := Array.getElem?_eq_some_iff.mp hcell
    refine ⟨⟨i, List.mem_range.mpr hlt, ?_⟩, decide_eq_true hv⟩
    rw [cell, Array.getD_eq_getD_getElem?, hcell, Option.getD_some]

/-- **The cells are listed in order**, so each of them once. -/
theorem pairwise_nonzero (t : Tape) : t.nonzero.Pairwise (fun e e' => e.1 < e'.1) := by
  have hordered : ((List.range t.size).map fun j => (j, t.cell j)).Pairwise
      (fun e e' => e.1 < e'.1) := List.pairwise_map.mpr List.pairwise_lt_range
  rw [nonzero_eq]
  exact hordered.filter _

theorem nonzero_eq_nil_iff (t : Tape) : t.nonzero = [] ↔ ∀ v ∈ t.cells, v = 0 := by
  rw [List.eq_nil_iff_forall_not_mem]
  constructor
  · intro hnone v hv
    obtain ⟨i, hi⟩ := Array.mem_iff_getElem?.mp hv
    by_cases hzero : v = 0
    · exact hzero
    · exact absurd ((t.mem_nonzero i v).mpr ⟨hi, hzero⟩) (hnone (i, v))
  · rintro hzero ⟨i, v⟩ hmem
    obtain ⟨hi, hv⟩ := (t.mem_nonzero i v).mp hmem
    exact hv (hzero v (Array.mem_of_getElem? hi))

/-- A cell that is not listed is zero, so the list tells all cells. -/
theorem cells_eq_of_nonzero (hsize : u.size = t.size) (h : u.nonzero = t.nonzero) :
    u.cells = t.cells := by
  refine Array.ext hsize fun i hu ht => ?_
  by_cases hzero : u.cells[i] = 0
  · by_cases hzero' : t.cells[i] = 0
    · rw [hzero, hzero']
    · have hlisted : (i, t.cells[i]) ∈ u.nonzero := by
        rw [h, mem_nonzero]
        exact ⟨Array.getElem?_eq_getElem ht, hzero'⟩
      exact (Array.getElem?_eq_some_iff.mp ((u.mem_nonzero i _).mp hlisted).1).2
  · have hlisted : (i, u.cells[i]) ∈ t.nonzero := by
      rw [← h, mem_nonzero]
      exact ⟨Array.getElem?_eq_getElem hu, hzero⟩
    exact (Array.getElem?_eq_some_iff.mp ((t.mem_nonzero i _).mp hlisted).1).2.symm

end Tape

/-! ## §2. Entries. -/

namespace Report

theorem toList_dumpCell (e : Nat × UInt8) : (dumpCell e).toList
    = '[' :: ((toString e.1).toList ++ (']' :: '=' :: (toString e.2.toNat).toList)) := by
  have hopen : "[".toList = ['['] := by decide
  have hclose : "]=".toList = [']', '='] := by decide
  show ("[" ++ toString e.1 ++ "]=" ++ toString e.2.toNat).toList = _
  simp only [String.toList_append, hopen, hclose, List.append_assoc, List.cons_append,
    List.nil_append]

/-- **An entry tells its index and its value** where no digit follows. -/
theorem legible_dumpCell :
    Legible (fun e : Nat × UInt8 => (dumpCell e).toList) (Stops Char.isDigit) := by
  rintro ⟨i, v⟩ ⟨j, w⟩ x y hx hy h
  simp only [toList_dumpCell, List.cons_append, List.append_assoc] at h
  obtain ⟨rfl, hvalue⟩ := Text.legible_toString i j _ _ (stops_cons.mpr (by decide))
    (stops_cons.mpr (by decide)) (List.cons.inj h).2
  obtain ⟨hv, hxy⟩ := Text.legible_toString _ _ x y hx hy
    (List.cons.inj (List.cons.inj hvalue).2).2
  exact ⟨congrArg (Prod.mk i) (UInt8.toNat_inj.mp hv), hxy⟩

theorem not_mem_dumpCell (e : Nat × UInt8) : '\n' ∉ (dumpCell e).toList := by
  have hdigits : ∀ n : Nat, '\n' ∉ (toString n).toList := fun n hmem =>
    absurd (Text.isDigit_of_mem_toString hmem) (by decide)
  simp only [toList_dumpCell, List.mem_cons, List.mem_append, hdigits, Char.reduceEq, or_self,
    not_false_eq_true]

/-- A row of entries, a blank in front of each. -/
def entries (es : List (Nat × UInt8)) : List Char :=
  es.flatMap fun e => ' ' :: (dumpCell e).toList

/-- **A row of entries tells the entries** up to the end of the line. -/
theorem legible_entries : Legible entries fun z => z = ['\n'] := by
  have hspaced : Legible (fun e : Nat × UInt8 => ' ' :: (dumpCell e).toList)
      (Stops Char.isDigit) := by
    intro e e' x y hx hy h
    exact legible_dumpCell e e' x y hx hy (List.cons.inj h).2
  refine hspaced.flatMap (fun e x => stops_cons.mpr (by decide)) ?_ ?_
  · rintro x rfl
    exact stops_cons.mpr (by decide)
  · intro e x h
    exact absurd (List.cons.inj h).1 (by decide)

theorem not_mem_entries (es : List (Nat × UInt8)) : '\n' ∉ entries es := by
  intro hmem
  obtain ⟨e, -, he⟩ := List.mem_flatMap.mp hmem
  rcases List.mem_cons.mp he with h | h
  · exact absurd h (by decide)
  · exact not_mem_dumpCell e h

/-- Entries that are joined with blanks, and one more blank in front. -/
theorem cons_intercalate (e : Nat × UInt8) (es : List (Nat × UInt8)) :
    ' ' :: (" ".intercalate ((e :: es).map dumpCell)).toList = entries (e :: es) := by
  have hblank : " ".toList = [' '] := by decide
  induction es generalizing e with
  | nil =>
      rw [List.map_cons, List.map_nil, String.intercalate_singleton]
      simp [entries]
  | cons e' es ih =>
      have hrow : entries (e :: e' :: es) = ' ' :: ((dumpCell e).toList ++ entries (e' :: es)) := rfl
      rw [hrow, ← ih e', List.map_cons, List.map_cons, String.intercalate_cons_cons]
      simp only [String.toList_append, hblank, List.append_assoc, List.cons_append,
        List.nil_append]

/-! ## §3. The lines of a dump. -/

theorem dumpCells_of_nil (h : t.nonzero = []) :
    dumpCells t = s!"memory: all {t.size} cells are 0" := by
  rw [dumpCells, h]

theorem dumpCells_of_ne_nil (h : t.nonzero ≠ []) :
    dumpCells t = "memory: " ++ " ".intercalate (t.nonzero.map dumpCell) := by
  rw [dumpCells]
  cases hes : t.nonzero with
  | nil => exact absurd hes h
  | cons e es => rfl

/-- What stands behind the colon of the second line. -/
def told (t : Tape) : List Char :=
  if t.nonzero = [] then " all ".toList ++ ((toString t.size).toList ++ " cells are 0".toList)
  else entries t.nonzero

theorem toList_dumpCells (t : Tape) : (dumpCells t).toList = "memory:".toList ++ told t := by
  by_cases h : t.nonzero = []
  · have hcolon : "memory: all ".toList = "memory:".toList ++ " all ".toList := by decide
    rw [dumpCells_of_nil h, told, if_pos h]
    show ("memory: all " ++ toString t.size ++ " cells are 0").toList = _
    rw [String.toList_append, String.toList_append, hcolon, List.append_assoc, List.append_assoc]
  · have hcolon : "memory: ".toList = "memory:".toList ++ [' '] := by decide
    rw [dumpCells_of_ne_nil h, told, if_neg h, String.toList_append, hcolon, List.append_assoc]
    cases hes : t.nonzero with
    | nil => exact absurd hes h
    | cons e es => rw [← cons_intercalate]; rfl

/-- What is said of a tape of zeros is not taken for an entry. -/
theorem told_ne (hu : u.nonzero = []) (ht : t.nonzero ≠ []) (x y : List Char) :
    told u ++ x ≠ told t ++ y := by
  have hall : " all ".toList = [' ', 'a', 'l', 'l', ' '] := by decide
  obtain ⟨e, es, hes⟩ := List.exists_cons_of_ne_nil ht
  rw [told, if_pos hu, told, if_neg ht, hes, hall]
  intro h
  -- Behind the blank an entry has a bracket, and this a letter.
  rw [entries, List.flatMap_cons, toList_dumpCell] at h
  exact absurd (List.cons.inj (List.cons.inj h).2).1 (by decide)

theorem toList_dump (t : Tape) : (dump t).toList
    = "pointer: ".toList ++ ((toString t.head).toList
        ++ '\n' :: ("memory:".toList ++ (told t ++ ['\n']))) := by
  have hfeed : "\n".toList = ['\n'] := by decide
  show ("pointer: " ++ toString t.head ++ "\n" ++ dumpCells t ++ "\n").toList = _
  simp only [String.toList_append, hfeed, toList_dumpCells, List.append_assoc, List.cons_append,
    List.nil_append]

/-- **A dump tells the head and the cells that are not zero**, whatever the
length of the tape. -/
theorem head_nonzero_of_dump (h : dump u = dump t) : u.head = t.head ∧ u.nonzero = t.nonzero := by
  have hlist := congrArg String.toList h
  rw [toList_dump, toList_dump, List.append_cancel_left_eq] at hlist
  obtain ⟨hhead, hmemory⟩ := Text.legible_toString _ _ _ _ (stops_cons.mpr (by decide))
    (stops_cons.mpr (by decide)) hlist
  have htold := List.append_cancel_left (List.cons.inj hmemory).2
  refine ⟨hhead, ?_⟩
  by_cases hu : u.nonzero = [] <;> by_cases ht : t.nonzero = []
  · rw [hu, ht]
  · exact absurd htold (told_ne hu ht _ _)
  · exact absurd htold.symm (told_ne ht hu _ _)
  · rw [told, if_neg hu, told, if_neg ht] at htold
    exact (legible_entries _ _ _ _ rfl rfl htold).1

theorem not_mem_told (t : Tape) : '\n' ∉ told t := by
  have hall : '\n' ∉ " all ".toList := by decide
  have hzeros : '\n' ∉ " cells are 0".toList := by decide
  rw [told]
  split
  · intro hmem
    rcases List.mem_append.mp hmem with hmem | hmem
    · exact hall hmem
    · rcases List.mem_append.mp hmem with hmem | hmem
      · exact absurd (Text.isDigit_of_mem_toString hmem) (by decide)
      · exact hzeros hmem
  · exact not_mem_entries _

/-- **A dump has two lines.** -/
theorem lines_dump (t : Tape) : Text.lines (dump t).toList
    = [(s!"pointer: {t.head}" ++ "\n").toList, (dumpCells t ++ "\n").toList] := by
  have hfeed : "\n".toList = ['\n'] := by decide
  have hpointer : '\n' ∉ "pointer: ".toList ++ (toString t.head).toList := by
    have hname : '\n' ∉ "pointer: ".toList := by decide
    rw [List.mem_append, not_or]
    exact ⟨hname, fun hmem => absurd (Text.isDigit_of_mem_toString hmem) (by decide)⟩
  have hmemory : '\n' ∉ "memory:".toList ++ told t := by
    have hname : '\n' ∉ "memory:".toList := by decide
    rw [List.mem_append, not_or]
    exact ⟨hname, not_mem_told t⟩
  have hrows : (dump t).toList
      = ["pointer: ".toList ++ (toString t.head).toList, "memory:".toList ++ told t].flatMap
          (· ++ ['\n']) := by
    simp only [toList_dump, List.flatMap_cons, List.flatMap_nil, List.append_nil,
      List.append_assoc, List.cons_append, List.nil_append]
  have hinside : ∀ row ∈ ["pointer: ".toList ++ (toString t.head).toList,
      "memory:".toList ++ told t], '\n' ∉ row := by
    rw [List.forall_mem_cons, List.forall_mem_singleton]
    exact ⟨hpointer, hmemory⟩
  have hfirst : (s!"pointer: {t.head}" ++ "\n").toList
      = "pointer: ".toList ++ (toString t.head).toList ++ ['\n'] := by
    rw [String.toList_append, hfeed]
    exact congrArg (· ++ ['\n']) String.toList_append
  have hsecond : (dumpCells t ++ "\n").toList = "memory:".toList ++ told t ++ ['\n'] := by
    rw [String.toList_append, toList_dumpCells, hfeed]
  rw [hrows, Text.lines_flatMap hinside, hfirst, hsecond]
  rfl

/-- It is said that all cells are zeros if they are, and only then. -/
theorem dumpCells_eq_iff (t : Tape) :
    dumpCells t = s!"memory: all {t.size} cells are 0" ↔ t.nonzero = [] := by
  refine ⟨fun h => ?_, dumpCells_of_nil⟩
  -- This is what is said of a tape of zeros of the same length.
  have hzeroed : (Tape.zeroed t.size).nonzero = [] := by
    rw [Tape.nonzero_eq_nil_iff]
    intro v hv
    exact (Array.mem_replicate.mp hv).2
  have hsame : (dumpCells (Tape.zeroed t.size)).toList = (dumpCells t).toList := by
    rw [h, dumpCells_of_nil hzeroed, Tape.size_zeroed]
  rw [toList_dumpCells, toList_dumpCells, List.append_cancel_left_eq] at hsame
  by_cases hnil : t.nonzero = []
  · exact hnil
  · exact absurd (congrArg (· ++ []) hsame) (told_ne hzeroed hnil [] [])

end Report

open Report in
/-- **A DUMP TELLS THE TAPE.**  For every tape, however long and wherever the
head stands: the dump has two lines.  The first one gives the position of the
head.  The second one lists the index and the value of every cell that is not
zero, and of no other cell, in order of index, and each of them once; it says
instead that all cells are zeros if and only if they are.  Among tapes of one
length, the dumps of two tapes are the same if and only if the tapes are, head
and cells. -/
theorem dump_tells_tape (t : Tape) :
    (∃ (listed : List (Nat × UInt8)) (memory : String),
      Text.lines (dump t).toList
        = [(s!"pointer: {t.head}" ++ "\n").toList, (memory ++ "\n").toList] ∧
      listed.Pairwise (fun e e' => e.1 < e'.1) ∧
      (∀ i v, (i, v) ∈ listed ↔ t.cells[i]? = some v ∧ v ≠ 0) ∧
      (listed ≠ [] → memory
        = "memory: " ++ " ".intercalate (listed.map fun e => s!"[{e.1}]={e.2}")) ∧
      (memory = s!"memory: all {t.size} cells are 0" ↔ ∀ v ∈ t.cells, v = 0)) ∧
    ∀ u : Tape, u.size = t.size → (dump u = dump t ↔ u.head = t.head ∧ u.cells = t.cells) := by
  constructor
  · refine ⟨t.nonzero, dumpCells t, lines_dump t, t.pairwise_nonzero, t.mem_nonzero,
      dumpCells_of_ne_nil, ?_⟩
    rw [dumpCells_eq_iff, t.nonzero_eq_nil_iff]
  · intro u hsize
    constructor
    · intro h
      obtain ⟨hhead, hnonzero⟩ := head_nonzero_of_dump h
      exact ⟨hhead, Tape.cells_eq_of_nonzero hsize hnonzero⟩
    · rintro ⟨hhead, hcells⟩
      obtain ⟨cells, head⟩ := t
      cases hhead
      cases hcells
      rfl

/-- Zeros in front of the cells that are not zero, and between them. -/
def sparse : Tape := { cells := #[0, 7, 0, 255], head := 3 }

open Report in
theorem dump_tells_tape_sparse :
    dump sparse = "pointer: 3\nmemory: [1]=7 [3]=255\n" ∧
    dump { sparse with cells := #[0, 7, 25, 5] } ≠ dump sparse := by
  refine ⟨by decide +kernel, fun hsame => ?_⟩
  have hcells := (((dump_tells_tape sparse).2 { sparse with cells := #[0, 7, 25, 5] } rfl).mp
    hsame).2
  exact absurd hcells (by decide)

end Prairie
