/-
  Prairie.Report.Dump
  ───────────────────
  **THE STATE DUMP.**

  The dump of a tape has two lines: the position of the head, and every
  non-zero cell with its index, in order.  A tape of zeros is dumped by its
  length.
-/
import Prairie.Machine.Tape

namespace Prairie.Report

/-- One cell of a dump. -/
def dumpCell (entry : Nat × UInt8) : String := s!"[{entry.1}]={entry.2}"

/-- The line of a dump that tells about the cells. -/
def dumpCells (t : Tape) : String :=
  match t.nonzero with
  | [] => s!"memory: all {t.size} cells are 0"
  | entries => "memory: " ++ " ".intercalate (entries.map dumpCell)

/-- The dump of a tape. -/
def dump (t : Tape) : String := s!"pointer: {t.head}\n" ++ dumpCells t ++ "\n"

end Prairie.Report
