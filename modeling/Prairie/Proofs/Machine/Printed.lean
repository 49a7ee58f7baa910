/-
  Prairie.Proofs.Machine.Printed
  ──────────────────────────────
  **A LINE OF THE TABLE TELLS ITS ROW.**

  A row is printed on one line, in five columns with bars between them, and
  what the token did stands behind the last bar:

      8    | 8   | 0   | 1    | LoopEnd   | cell[0] is 1; repeat from IP 5
      │      │     │     │      │           │
      step   IP    head  cell   kind        action

  What is printed is said once more without the printer: a cell is filled up
  with blanks to the width of its column (`Text.Fills`), a kind has a name
  (`Token.Named`), an action is worded (`Action.Written`), and a line is made
  of these and nothing else (`Row.printed_iff`).  Read from the left, each
  part tells what it is and where it ends, so a line is that of one row only
  (`Row.render_inj`), but for the text of a comment, which is not printed.
-/
import Prairie.Machine.Table
import Prairie.Proofs.Text.Legible

namespace Prairie

open Text (Stops stops_cons)

/-! ## §1. Columns. -/

namespace Text

/-- The column is the cell and blanks behind it, up to the width; a cell that is
too long is not cut. -/
def Fills (width : Nat) (cell column : String) : Prop :=
  ∃ n, column.toList = cell.toList ++ List.replicate n ' ' ∧
    column.length = max width cell.length

/-- **The cell at the left of a column fills it**, and nothing else does. -/
theorem fills_iff {width : Nat} {cell column : String} :
    Fills width cell column ↔ column = flushLeft width cell := by
  constructor
  · rintro ⟨n, hcolumn, hlength⟩
    have hcount : column.length = cell.length + n := by
      rw [← String.length_toList, hcolumn, List.length_append, List.length_replicate,
        String.length_toList]
    obtain rfl : n = width - cell.length := by omega
    rw [← String.toList_inj, hcolumn, toList_flushLeft, toList_spaces]
  · rintro rfl
    refine ⟨width - cell.length, by rw [toList_flushLeft, toList_spaces], ?_⟩
    rw [← String.length_toList, toList_flushLeft, toList_spaces, List.length_append,
      List.length_replicate, String.length_toList]
    omega

end Text

/-! ## §2. Kinds and actions. -/

/-- What a token is called in the table. -/
inductive Token.Named : Token → String → Prop
  | comment (text : String) : Named (.comment text) "Comment"
  | wordUpper : Named (.literal (.word .upper)) "WordUpper"
  | wordLower : Named (.literal (.word .lower)) "WordLower"
  | output : Named (.literal .output) "Output"
  | loopBegin : Named (.literal .loopBegin) "LoopBegin"
  | loopEnd : Named (.literal .loopEnd) "LoopEnd"

theorem Token.named_iff {t : Token} {kind : String} : t.Named kind ↔ kind = t.kindName := by
  constructor
  · intro h
    cases h <;> rfl
  · rintro rfl
    cases t with
    | comment text => exact .comment text
    | literal l =>
        cases l with
        | output => exact .output
        | loopBegin => exact .loopBegin
        | loopEnd => exact .loopEnd
        | word w =>
            cases w with
            | upper => exact .wordUpper
            | lower => exact .wordLower

namespace Action

/-- The wording of an action, with all numbers in decimal. -/
inductive Written : Action → String → Prop
  | comment : Written .comment "Comment"
  | waitedUpper : Written (.waited .upper) "Pending Upper word"
  | waitedLower : Written (.waited .lower) "Pending Lower word"
  | incremented (index : Nat) (before after : UInt8) :
      Written (.incremented index before after)
        ("Increment cell[" ++ toString index ++ "] from " ++ toString before.toNat ++ " to "
          ++ toString after.toNat)
  | decremented (index : Nat) (before after : UInt8) :
      Written (.decremented index before after)
        ("Decrement cell[" ++ toString index ++ "] from " ++ toString before.toNat ++ " to "
          ++ toString after.toNat)
  | moved (index : Nat) :
      Written (.moved index) ("Moved pointer head to index " ++ toString index)
  | output (byte : UInt8) :
      Written (.output byte) ("Output byte " ++ toString byte.toNat ++ " (suppressed in debug)")
  | entered (test : Nat) :
      Written (.entered test) ("Enter loop testing cell[" ++ toString test ++ "]")
  | exited (test : Nat) :
      Written (.exited test) ("cell[" ++ toString test ++ "] is 0; exit loop")
  | repeated (test : Nat) (value : UInt8) (start : Nat) :
      Written (.repeated test value start)
        ("cell[" ++ toString test ++ "] is " ++ toString value.toNat ++ "; repeat from IP "
          ++ toString start)

/-- What is described is worded. -/
theorem written_describe (a : Action) : a.Written a.describe := by
  cases a with
  | comment => exact .comment
  | waited w =>
      cases w with
      | upper => exact .waitedUpper
      | lower => exact .waitedLower
  | incremented index before after => exact .incremented index before after
  | decremented index before after => exact .decremented index before after
  | moved index => exact .moved index
  | output byte => exact .output byte
  | entered test => exact .entered test
  | exited test => exact .exited test
  | repeated test value start => exact .repeated test value start

/-- **An action has one wording.** -/
theorem written_iff {a : Action} {text : String} : a.Written text ↔ text = a.describe := by
  constructor
  · intro h
    cases h <;> rfl
  · rintro rfl
    exact a.written_describe

/-! ## §3. Reading an action. -/

/-- The numbers of an action, each with the wording in front of it. -/
def figures : Action → List Text.Figure
  | .comment | .waited _ => []
  | .incremented index before after =>
      [{ lead := "Increment cell[", number := index },
        { lead := "] from ", number := before.toNat }, { lead := " to ", number := after.toNat }]
  | .decremented index before after =>
      [{ lead := "Decrement cell[", number := index },
        { lead := "] from ", number := before.toNat }, { lead := " to ", number := after.toNat }]
  | .moved index => [{ lead := "Moved pointer head to index ", number := index }]
  | .output byte => [{ lead := "Output byte ", number := byte.toNat }]
  | .entered test => [{ lead := "Enter loop testing cell[", number := test }]
  | .exited test => [{ lead := "cell[", number := test }, { lead := "] is ", number := 0 }]
  | .repeated test value start =>
      [{ lead := "cell[", number := test }, { lead := "] is ", number := value.toNat },
        { lead := "; repeat from IP ", number := start }]

/-- The wording behind the last number. -/
def closing : Action → String
  | .comment => "Comment"
  | .waited .upper => "Pending Upper word"
  | .waited .lower => "Pending Lower word"
  | .output _ => " (suppressed in debug)"
  | .entered _ => "]"
  | .exited _ => "; exit loop"
  | .incremented .. | .decremented .. | .moved _ | .repeated .. => ""

variable {a b : Action}

theorem plain_closing (a : Action) : ∀ c ∈ a.closing.toList, Text.plain c = true := by
  refine List.all_eq_true.mp ?_
  cases a with
  | comment => decide
  | waited w => cases w <;> decide
  | output byte => exact (by decide : " (suppressed in debug)".toList.all Text.plain = true)
  | entered test => exact (by decide : "]".toList.all Text.plain = true)
  | exited test => exact (by decide : "; exit loop".toList.all Text.plain = true)
  | _ => rfl

theorem toList_describe (a : Action) :
    a.describe.toList = a.figures.flatMap Text.Figure.written ++ a.closing.toList := by
  have hwritten := a.written_describe
  generalize a.describe = text at hwritten ⊢
  cases hwritten <;> simp [figures, closing, Text.Figure.written]

/-- The action with given figures and a given closing; any action if there is none. -/
def ofFigures (figures : List Text.Figure) (closing : String) : Action :=
  match figures with
  | [] =>
      if closing = "Comment" then .comment
      else .waited (if closing = "Pending Upper word" then .upper else .lower)
  | [f] =>
      if closing = "" then .moved f.number
      else if closing = "]" then .entered f.number
      else .output (.ofNat f.number)
  | [f, g, h] =>
      if f.lead = "cell[" then .repeated f.number (.ofNat g.number) h.number
      else if f.lead = "Increment cell[" then
        .incremented f.number (.ofNat g.number) (.ofNat h.number)
      else .decremented f.number (.ofNat g.number) (.ofNat h.number)
  | f :: _ => .exited f.number

/-- **Figures and closing tell the action.** -/
theorem ofFigures_figures (a : Action) : ofFigures a.figures a.closing = a := by
  cases a with
  | waited w => cases w <;> simp [figures, closing, ofFigures]
  | _ => simp [figures, closing, ofFigures]

/-- **A wording is that of one action only.** -/
theorem describe_inj (h : a.describe = b.describe) : a = b := by
  have hlist := congrArg String.toList h
  rw [toList_describe, toList_describe] at hlist
  obtain ⟨hfigures, hclosing⟩ :=
    Text.legible_figures _ _ _ _ a.plain_closing b.plain_closing hlist
  rw [← ofFigures_figures a, hfigures, String.toList_inj.mp hclosing, ofFigures_figures]

theorem not_mem_describe (a : Action) : '\n' ∉ a.describe.toList := by
  rw [toList_describe, List.mem_append, not_or]
  exact ⟨Text.not_mem_figures _, fun hmem => absurd (a.plain_closing _ hmem) (by decide)⟩

end Action

/-! ## §4. The line of a row. -/

namespace Row

/-- The line of a row: five columns with bars between them, and the action. -/
inductive Printed (a : Row) : String → Prop
  | columns {step position head cell kind column text : String}
      (step_fills : Text.Fills 4 (toString a.moment.step) step)
      (position_fills : Text.Fills 3 (toString a.position) position)
      (head_fills : Text.Fills 3 (toString a.moment.head) head)
      (cell_fills : Text.Fills 4 (toString a.moment.cell.toNat) cell)
      (named : a.token.Named kind)
      (kind_fills : Text.Fills 9 kind column)
      (written : a.action.Written text) :
      Printed a (step ++ " | " ++ position ++ " | " ++ head ++ " | " ++ cell ++ " | " ++ column
        ++ " | " ++ text)

variable {a b : Row} {line : String}

theorem render_eq (a : Row) : a.render
    = Text.flushLeft 4 (toString a.moment.step) ++ " | " ++ Text.flushLeft 3 (toString a.position)
      ++ " | " ++ Text.flushLeft 3 (toString a.moment.head) ++ " | "
      ++ Text.flushLeft 4 (toString a.moment.cell.toNat) ++ " | "
      ++ Text.flushLeft 9 a.token.kindName ++ " | " ++ a.action.describe := by
  unfold render
  simp only [String.intercalate_cons_cons, String.intercalate_singleton, String.append_assoc]
  rfl

/-- **A row has one line**, the one that is rendered. -/
theorem printed_iff : a.Printed line ↔ line = a.render := by
  constructor
  · intro h
    cases h with
    | columns step_fills position_fills head_fills cell_fills named kind_fills written =>
        rw [render_eq, Text.fills_iff.mp step_fills, Text.fills_iff.mp position_fills,
          Text.fills_iff.mp head_fills, Text.fills_iff.mp cell_fills,
          Text.fills_iff.mp kind_fills, Token.named_iff.mp named, Action.written_iff.mp written]
  · rintro rfl
    rw [render_eq]
    exact .columns (Text.fills_iff.mpr rfl) (Text.fills_iff.mpr rfl) (Text.fills_iff.mpr rfl)
      (Text.fills_iff.mpr rfl) (Token.named_iff.mpr rfl) (Text.fills_iff.mpr rfl)
      (Action.written_iff.mpr rfl)

/-- The characters of a line, from the left. -/
theorem toList_render (a : Row) : a.render.toList
    = (Text.flushLeft 4 (toString a.moment.step)).toList ++ (' ' :: '|' :: ' ' ::
      ((Text.flushLeft 3 (toString a.position)).toList ++ (' ' :: '|' :: ' ' ::
      ((Text.flushLeft 3 (toString a.moment.head)).toList ++ (' ' :: '|' :: ' ' ::
      ((Text.flushLeft 4 (toString a.moment.cell.toNat)).toList ++ (' ' :: '|' :: ' ' ::
      (a.token.kindName.toList ++ ((Text.spaces (9 - a.token.kindName.length)).toList ++
      (' ' :: '|' :: ' ' :: a.action.describe.toList)))))))))) := by
  have hbar : " | ".toList = [' ', '|', ' '] := by decide
  simp only [render_eq, String.toList_append, hbar, Text.toList_flushLeft 9, List.append_assoc,
    List.cons_append, List.nil_append]

theorem bar_inj {x y : List Char} (h : ' ' :: '|' :: ' ' :: x = ' ' :: '|' :: ' ' :: y) :
    x = y := by
  simpa using h

/-- A column of numerals tells its number, and what stands behind the bar. -/
theorem column_inj {width m n : Nat} {x y : List Char}
    (h : (Text.flushLeft width (toString m)).toList ++ (' ' :: '|' :: ' ' :: x)
      = (Text.flushLeft width (toString n)).toList ++ (' ' :: '|' :: ' ' :: y)) :
    m = n ∧ x = y := by
  obtain ⟨hnumber, hrest⟩ := Text.legible_flushLeft width m n _ _ (stops_cons.mpr (by decide))
    (stops_cons.mpr (by decide)) h
  exact ⟨hnumber, bar_inj hrest⟩

/-- **A line tells its row**, but for the text of a comment. -/
theorem render_inj (h : a.render = b.render) :
    a.moment = b.moment ∧ a.position = b.position ∧ a.token.literal? = b.token.literal? ∧
      a.action = b.action := by
  have hline := congrArg String.toList h
  rw [toList_render, toList_render] at hline
  obtain ⟨hstep, hposition⟩ := column_inj hline
  obtain ⟨hposition, hhead⟩ := column_inj hposition
  obtain ⟨hhead, hcell⟩ := column_inj hhead
  obtain ⟨hcell, hkind⟩ := column_inj hcell
  -- No letter stands behind the kind, but blanks or the bar.
  have hstops : ∀ (n : Nat) x, Stops Char.isAlpha ((Text.spaces n).toList ++ ' ' :: x) :=
    fun n x => (stops_cons.mpr (by decide)).spaces_append (by decide) n
  obtain ⟨hkind, hrest⟩ := Text.append_inj_of_stops (fun c => Token.isAlpha_of_mem_kindName)
    (fun c => Token.isAlpha_of_mem_kindName) (hstops _ _) (hstops _ _) hkind
  have hkind := String.toList_inj.mp hkind
  rw [hkind, List.append_cancel_left_eq] at hrest
  have haction := String.toList_inj.mp (bar_inj hrest)
  refine ⟨?_, hposition, Token.literal?_eq_of_kindName hkind, Action.describe_inj haction⟩
  show Moment.mk a.moment.step a.moment.head a.moment.cell = b.moment
  rw [hstep, hhead, UInt8.toNat_inj.mp hcell]

/-- **A line holds no line feed.** -/
theorem not_mem_render (a : Row) : '\n' ∉ a.render.toList := by
  have hcolumn : ∀ width n : Nat, '\n' ∉ (Text.flushLeft width (toString n)).toList :=
    fun width n hmem => absurd (Text.blank_or_digit_of_mem_flushLeft hmem) (by decide)
  have hkind : '\n' ∉ a.token.kindName.toList :=
    fun hmem => absurd (Token.isAlpha_of_mem_kindName hmem) (by decide)
  have hspaces : ∀ n, '\n' ∉ (Text.spaces n).toList :=
    fun n hmem => absurd (Text.eq_of_mem_spaces hmem) (by decide)
  simp only [toList_render, List.mem_append, List.mem_cons, hcolumn, hkind, hspaces,
    a.action.not_mem_describe, Char.reduceEq, or_self, not_false_eq_true]

end Row

/-! ## §5. The lines of a table. -/

namespace Table

theorem length_lines (rows : Array Row) : (lines rows.toList).length = rows.size + 2 := by
  rw [lines, List.length_append, List.length_map, Nat.add_comm]
  rfl

/-- Behind the heading there is one line for each row. -/
theorem getElem?_lines (rows : Array Row) (j : Nat) :
    (lines rows.toList)[j + 2]? = rows[j]?.map Row.render := by
  show (rows.toList.map Row.render)[j]? = _
  rw [List.getElem?_map, Array.getElem?_toList]

theorem not_mem_lines {rows : List Row} {line : String} (h : line ∈ lines rows) :
    '\n' ∉ line.toList := by
  rcases List.mem_append.mp h with h | h
  · have key : ∀ line ∈ heading, '\n' ∉ line.toList := by decide
    exact key line h
  · obtain ⟨a, -, rfl⟩ := List.mem_map.mp h
    exact a.not_mem_render

/-- **The lines of a table can be told apart** where it is printed, each with its
line feed. -/
theorem lines_join (rows : List Row) :
    Text.lines (String.join ((lines rows).map (· ++ "\n"))).toList
      = (lines rows).map fun line => line.toList ++ ['\n'] := by
  have hfeed : "\n".toList = ['\n'] := by decide
  have hprinted : (String.join ((lines rows).map (· ++ "\n"))).toList
      = ((lines rows).map String.toList).flatMap (· ++ ['\n']) := by
    rw [String.toList_join, List.flatMap_map, List.flatMap_map]
    refine congrArg (List.flatMap · _) (funext fun line => ?_)
    rw [String.toList_append, hfeed]
  rw [hprinted, Text.lines_flatMap, List.map_map]
  · rfl
  · intro row hrow
    obtain ⟨line, hline, rfl⟩ := List.mem_map.mp hrow
    exact not_mem_lines hline

end Table

end Prairie
