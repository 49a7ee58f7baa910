/-
  Prairie.Proofs.Settings.LastValid
  ─────────────────────────────────
  **WHICH LINE OF A SETTINGS FILE COUNTS.**

  What a line is can be told from its letters, blanks at its ends apart:

      [title]                          a header
      name = raw   (name without =)    an assignment, unless it is a header,
                                       a remark or blank

  and a value in one pair of double quotes is what stands between them.  For
  each key the last valid assignment in the section decides.  Take any other
  line out of a file, a header apart, and nothing changes: the lines behind it
  move up by one, and all that is said about lines is said by their order.
-/
import Mathlib.Data.List.Basic
import Prairie.Proofs.Settings.Section
import Prairie.Proofs.Text.Between
import Prairie.Proofs.Text.Trim

namespace Prairie.Settings

open Text (byteWidth Between)

variable {line text raw key value title : List Char} {lines : List (List Char)} {n i j : Nat}

/-! ## §1. Lines, letter by letter. -/

/-- The line is a header: a title in square brackets. -/
def Header (line title : List Char) : Prop := Text.trim line = '[' :: (title ++ [']'])

/-- There is something on the line that is no header and no remark. -/
structure Plain (line : List Char) : Prop where
  not_blank : Text.trim line ≠ []
  not_remark : (Text.trim line).head? ≠ some '#'
  not_header : ∀ title, ¬ Header line title

/-- What a text says without one pair of double quotes around it, if it has one. -/
inductive Unquoted : List Char → List Char → Prop where
  | quoted {inner : List Char} : Unquoted ('\x22' :: (inner ++ ['\x22'])) inner
  | bare {raw : List Char} (not_quoted : ∀ inner, raw ≠ '\x22' :: (inner ++ ['\x22'])) :
      Unquoted raw raw

/-- The line assigns a value to a key: they stand on both sides of the first
equals sign. -/
def Assigns (line key value : List Char) : Prop :=
  ∃ name raw, Text.trim line = name ++ '=' :: raw ∧ '=' ∉ name ∧ Text.trim name = key ∧
    Unquoted (Text.trim raw) value

theorem unquoted_quoted (inner : List Char) :
    unquoted ('\x22' :: (inner ++ ['\x22'])) = inner := by
  rw [unquoted, if_pos List.getLast?_concat, List.dropLast_concat]

theorem unquoted_bare (h : ∀ inner, raw ≠ '\x22' :: (inner ++ ['\x22'])) : unquoted raw = raw := by
  unfold unquoted
  split
  next rest =>
      rw [if_neg]
      intro hlast
      obtain ⟨inner, rfl⟩ := List.getLast?_eq_some_iff.mp hlast
      exact h inner rfl
  next => rfl

theorem unquoted_eq_iff : unquoted raw = value ↔ Unquoted raw value := by
  constructor
  · rintro rfl
    by_cases hquoted : ∃ inner, raw = '\x22' :: (inner ++ ['\x22'])
    · obtain ⟨inner, rfl⟩ := hquoted
      rw [unquoted_quoted]
      exact .quoted
    · have hbare : ∀ inner, raw ≠ '\x22' :: (inner ++ ['\x22']) :=
        fun inner h => hquoted ⟨inner, h⟩
      rw [unquoted_bare hbare]
      exact .bare hbare
  · rintro (_ | hbare)
    · exact unquoted_quoted value
    · exact unquoted_bare hbare

/-- **An entry is an assignment.** -/
theorem entryOf_eq_entry_iff :
    Line.read.entryOf text = .entry key value ↔
      ∃ name raw, text = name ++ '=' :: raw ∧ '=' ∉ name ∧ Text.trim name = key ∧
        Unquoted (Text.trim raw) value := by
  constructor
  · intro h
    by_cases hmark : '=' ∈ text
    · obtain ⟨name, raw, rfl, hname⟩ := List.eq_append_cons_of_mem hmark
      rw [Line.read.entryOf, Text.cutAt_append hname] at h
      injection h with hkey hvalue
      exact ⟨name, raw, rfl, hname, hkey, unquoted_eq_iff.mp hvalue⟩
    · rw [Line.read.entryOf, Text.cutAt_of_not_mem hmark] at h
      cases h
  · rintro ⟨name, raw, rfl, hname, rfl, hvalue⟩
    rw [Line.read.entryOf, Text.cutAt_append hname, ← unquoted_eq_iff.mpr hvalue]

/-- No other line is read as a heading. -/
theorem entryOf_ne_heading (text title : List Char) : Line.read.entryOf text ≠ .heading title := by
  unfold Line.read.entryOf
  split
  · exact Line.noConfusion
  · exact Line.noConfusion

/-- **A heading is a header.** -/
theorem read_eq_heading_iff : Line.read line = .heading title ↔ Header line title := by
  unfold Line.read Header
  split
  next hnil => rw [hnil]; simp
  next rest hremark => rw [hremark]; simp
  next rest hbracket =>
      rw [hbracket]
      split
      next hlast =>
          obtain ⟨init, rfl⟩ := List.getLast?_eq_some_iff.mp hlast
          rw [List.dropLast_concat]
          simp
      next hlast =>
          refine iff_of_false (entryOf_ne_heading _ _) fun h => hlast ?_
          rw [(List.cons.inj h).2, List.getLast?_concat]
  next hnil hremark hbracket =>
      exact iff_of_false (entryOf_ne_heading _ _) (hbracket _)

/-- What is read as neither a heading nor idle is read as an entry. -/
theorem read_of_plain (h : Plain line) : Line.read line = Line.read.entryOf (Text.trim line) := by
  unfold Line.read
  split
  next hnil => exact absurd hnil h.not_blank
  next rest hremark => exact absurd (by rw [hremark]; rfl) h.not_remark
  next rest hbracket =>
      rw [if_neg, hbracket]
      intro hlast
      obtain ⟨title, rfl⟩ := List.getLast?_eq_some_iff.mp hlast
      exact h.not_header title hbracket
  next => rfl

/-- **An entry is a plain line that assigns.** -/
theorem read_eq_entry_iff :
    Line.read line = .entry key value ↔ Plain line ∧ Assigns line key value := by
  constructor
  · intro h
    have hplain : Plain line := by
      refine ⟨fun hnil => ?_, fun hremark => ?_, fun title htitle => ?_⟩
      · rw [Line.read, hnil] at h
        cases h
      · obtain ⟨rest, hrest⟩ := List.head?_eq_some_iff.mp hremark
        rw [Line.read, hrest] at h
        cases h
      · rw [read_eq_heading_iff.mpr htitle] at h
        cases h
    rw [read_of_plain hplain] at h
    exact ⟨hplain, entryOf_eq_entry_iff.mp h⟩
  · rintro ⟨hplain, hassigns⟩
    rw [read_of_plain hplain]
    exact entryOf_eq_entry_iff.mpr hassigns

/-! ## §2. Slices of a line. -/

/-- What stands between two letters of one byte can be cut out. -/
theorem between_enclosed {first last : Char} (hfirst : first.utf8Size = 1)
    (hlast : last.utf8Size = 1) (inner : List Char) :
    Between (first :: (inner ++ [last])) 1 (byteWidth (first :: (inner ++ [last])) - 1) inner := by
  refine ⟨[first], [last], rfl, ?_, ?_⟩
  · rw [Text.byteWidth_cons, Text.byteWidth_nil, hfirst]
  · simp only [Text.byteWidth_cons, Text.byteWidth_append, Text.byteWidth_nil, hfirst, hlast]
    omega

/-- A text that begins and ends with two letters is enclosed by them, if it is
more than the first. -/
theorem enclosed_of_ends {first last : Char} {cs : List Char} (hmore : cs ≠ [first])
    (hhead : cs.head? = some first) (hend : cs.getLast? = some last) :
    ∃ inner, cs = first :: (inner ++ [last]) := by
  obtain ⟨rest, rfl⟩ := List.head?_eq_some_iff.mp hhead
  have hne : rest ≠ [] := fun hnil => hmore (congrArg (List.cons first) hnil)
  rw [List.getLast?_cons_of_ne_nil hne] at hend
  obtain ⟨inner, rfl⟩ := List.getLast?_eq_some_iff.mp hend
  exact ⟨inner, rfl⟩

/-- **The title of a header can be cut out of its line.** -/
theorem sliced_header (hhead : (Text.trim line).head? = some '[')
    (hend : (Text.trim line).getLast? = some ']') :
    ∃ title, Header line title ∧ Text.Sliced (String.ofList (Text.trim line)) 1
      (byteWidth (Text.trim line) - 1) (String.ofList title) := by
  have hmore : Text.trim line ≠ ['['] := by
    intro h
    rw [h] at hend
    exact absurd hend (by decide)
  obtain ⟨title, htitle⟩ := enclosed_of_ends hmore hhead hend
  refine ⟨title, htitle, Between.sliced ?_⟩
  rw [String.toList_ofList, htitle]
  exact between_enclosed (by decide) (by decide) title

/-- **A value can be cut out of its quotes.** -/
theorem sliced_quoted (hwidth : 2 ≤ byteWidth raw) (hhead : raw.head? = some '\x22')
    (hend : raw.getLast? = some '\x22') :
    Text.Sliced (String.ofList raw) 1 (byteWidth raw - 1) (String.ofList (unquoted raw)) := by
  have hmore : raw ≠ ['\x22'] := by
    rintro rfl
    exact absurd hwidth (by decide)
  obtain ⟨inner, rfl⟩ := enclosed_of_ends hmore hhead hend
  refine Between.sliced ?_
  rw [String.toList_ofList, unquoted_quoted]
  exact between_enclosed (by decide) (by decide) inner

/-! ## §3. A file with one line less. -/

/-- The number in the whole file of line `i` of the file without line `n`. -/
def skip (n i : Nat) : Nat := if i < n then i else i + 1

theorem skip_lt_skip_iff : skip n i < skip n j ↔ i < j := by
  unfold skip
  split <;> split <;> omega

/-- Every line but the one taken out is left. -/
theorem exists_skip (h : i ≠ n) : ∃ j, skip n j = i := by
  unfold skip
  by_cases hlt : i < n
  · exact ⟨i, if_pos hlt⟩
  · exact ⟨i - 1, by rw [if_neg] <;> omega⟩

theorem getElem?_skip : lines[skip n i]? = (lines.eraseIdx n)[i]? := by
  rw [List.getElem?_eraseIdx]
  unfold skip
  split <;> rfl

theorem headingAt_skip :
    HeadingAt lines (skip n i) title ↔ HeadingAt (lines.eraseIdx n) i title := by
  unfold HeadingAt
  rw [getElem?_skip]

/-- Line `i` gives the key its last valid value. -/
def Decides {α : Type} (means : List Char → α → Prop) (key : List Char)
    (lines : List (List Char)) (i : Nat) : Prop :=
  ∃ value x, GivenAt lines key i value ∧ means value x ∧
    ∀ j later, i < j → GivenAt lines key j later → ∀ y, ¬ means later y

section

variable (hline : ∀ title, ¬ HeadingAt lines n title)
include hline

/-- Every heading is left. -/
theorem exists_skip_of_heading (h : HeadingAt lines i title) : ∃ j, skip n j = i := by
  refine exists_skip ?_
  rintro rfl
  exact hline title h

/-- Without a line that is no heading the other lines are in the section as they
were. -/
theorem within_skip : Within lines (skip n i) ↔ Within (lines.eraseIdx n) i := by
  constructor
  -- The nearest heading before line `i` is the same one in both files.
  · rintro ⟨k, hk, hhead, hnone⟩
    obtain ⟨j, rfl⟩ := exists_skip_of_heading hline hhead
    refine ⟨j, skip_lt_skip_iff.mp hk, headingAt_skip.mp hhead, fun k hjk hki title hkhead => ?_⟩
    exact hnone (skip n k) (skip_lt_skip_iff.mpr hjk) (skip_lt_skip_iff.mpr hki) title
      (headingAt_skip.mpr hkhead)
  · rintro ⟨j, hj, hhead, hnone⟩
    refine ⟨skip n j, skip_lt_skip_iff.mpr hj, headingAt_skip.mpr hhead,
      fun k hjk hki title hkhead => ?_⟩
    obtain ⟨k, rfl⟩ := exists_skip_of_heading hline hkhead
    exact hnone k (skip_lt_skip_iff.mp hjk) (skip_lt_skip_iff.mp hki) title
      (headingAt_skip.mp hkhead)

theorem givenAt_skip :
    GivenAt lines key (skip n i) value ↔ GivenAt (lines.eraseIdx n) key i value := by
  unfold GivenAt
  rw [within_skip hline, getElem?_skip]

/-- **A line that does not decide can be taken out**, if it is no heading. -/
theorem Stands.eraseIdx {α : Type} {means : List Char → α → Prop} {start x : α}
    (h : Stands means key start lines x) (hother : ¬ Decides means key lines n) :
    Stands means key start (lines.eraseIdx n) x := by
  rcases h with ⟨k, value, hk, hvalue, hlast⟩ | ⟨hnever, rfl⟩
  · -- The line that decides is not the one taken out.
    obtain ⟨i, rfl⟩ : ∃ i, skip n i = k := by
      refine exists_skip ?_
      rintro rfl
      exact hother ⟨value, x, hk, hvalue, hlast⟩
    refine .inl ⟨i, value, (givenAt_skip hline).mp hk, hvalue, fun j later hij hlater => ?_⟩
    exact hlast (skip n j) later (skip_lt_skip_iff.mpr hij) ((givenAt_skip hline).mpr hlater)
  · exact .inr ⟨fun i value hi => hnever (skip n i) value ((givenAt_skip hline).mpr hi), rfl⟩

end

namespace Field

variable {α : Type} (f : Field α)

/-- **What stands for its key in the lines of a file is in the field.** -/
theorem stands_iff (content : String) (x : α) :
    Stands f.means f.key (f.get {}) (Text.lines content.toList) x ↔ f.get (ofFile content) = x := by
  have hstands := f.stands_of (Text.lines content.toList)
  rw [ofFile_eq]
  constructor
  · exact hstands.unique f.means_unique
  · rintro rfl
    exact hstands

/-- A field does not change when a line that does not decide is taken out. -/
theorem get_ofFile_eraseIdx {content shorter : String}
    (hlines : Text.lines shorter.toList = (Text.lines content.toList).eraseIdx n)
    (hline : ∀ title, ¬ HeadingAt (Text.lines content.toList) n title)
    (hother : ¬ Decides f.means f.key (Text.lines content.toList) n) :
    f.get (ofFile shorter) = f.get (ofFile content) := by
  rw [← f.stands_iff, hlines]
  exact ((f.stands_iff content _).mpr rfl).eraseIdx hline hother

end Field

/-! ## §4. Whole files. -/

/-- **THE LAST VALID ASSIGNMENT IN THE SECTION COUNTS**, whatever the file is.  The
headings of a file are its headers, and its entries are the plain lines that
assign; and what stands for a key is what the last valid entry for it in the
section means, or the default if there is none.

No other line has a say: take out any line that is no header and does not decide
about a key, and what is set for the key stays.  The title of a header and the
value in a pair of quotes are slices of the bytes of what trimming leaves. -/
theorem last_valid_assignment_counts (content : String) :
    (∀ line title, Line.read line = .heading title ↔ Header line title) ∧
    (∀ line key value, Line.read line = .entry key value ↔
      Plain line ∧ Assigns line key value) ∧
    (∀ n, Stands Text.Numeral "memory_size".toList 256 (Text.lines content.toList) n ↔
      (ofFile content).memorySize = n) ∧
    (∀ d, Stands DepthText "max_loop_depth".toList (some 2500) (Text.lines content.toList) d ↔
      (ofFile content).maxLoopDepth = d) ∧
    (∀ (shorter : String) (n : Nat),
      Text.lines shorter.toList = (Text.lines content.toList).eraseIdx n →
      (∀ line, (Text.lines content.toList)[n]? = some line → ∀ title, ¬ Header line title) →
      (¬ Decides Text.Numeral "memory_size".toList (Text.lines content.toList) n →
        (ofFile shorter).memorySize = (ofFile content).memorySize) ∧
      (¬ Decides DepthText "max_loop_depth".toList (Text.lines content.toList) n →
        (ofFile shorter).maxLoopDepth = (ofFile content).maxLoopDepth)) ∧
    (∀ line : List Char, (Text.trim line).head? = some '[' →
      (Text.trim line).getLast? = some ']' →
      ∃ title, Header line title ∧ Text.Sliced (String.ofList (Text.trim line)) 1
        (byteWidth (Text.trim line) - 1) (String.ofList title)) ∧
    (∀ raw : List Char, 2 ≤ byteWidth raw → raw.head? = some '\x22' →
      raw.getLast? = some '\x22' →
      Text.Sliced (String.ofList raw) 1 (byteWidth raw - 1) (String.ofList (unquoted raw))) := by
  refine ⟨fun _ _ => read_eq_heading_iff, fun _ _ _ => read_eq_entry_iff,
    memorySizeField.stands_iff content, maxLoopDepthField.stands_iff content,
    fun shorter n hlines hline => ?_, fun _ => sliced_header, fun _ => sliced_quoted⟩
  have hno : ∀ title, ¬ HeadingAt (Text.lines content.toList) n title := by
    rintro title ⟨line, hat, hread⟩
    exact hline line hat title (read_eq_heading_iff.mp hread)
  exact ⟨memorySizeField.get_ofFile_eraseIdx hlines hno,
    maxLoopDepthField.get_ofFile_eraseIdx hlines hno⟩

/-- A lone quote, a lone bracket, and a section that is opened again for a value
with an equals sign in it. -/
def reopenedFile : String :=
  "[interpreter]\nmemory_size=\"+64\"\nmemory_size=\"\n[\n[x]\nmemory_size=3\n[interpreter]\r\n" ++
    "max_loop_depth=\" NoNe\"\nmemory_size=5=6"

/-- The same file without the lone quote. -/
def reopenedFileShorter : String :=
  "[interpreter]\nmemory_size=\"+64\"\n[\n[x]\nmemory_size=3\n[interpreter]\r\n" ++
    "max_loop_depth=\" NoNe\"\nmemory_size=5=6"

-- Long literals become lists of characters before anything is computed from them.
theorem lines_reopenedFile :
    Text.lines reopenedFile.toList =
      ["[interpreter]\n".toList, "memory_size=\"+64\"\n".toList, "memory_size=\"\n".toList,
        "[\n".toList, "[x]\n".toList, "memory_size=3\n".toList, "[interpreter]\r\n".toList,
        "max_loop_depth=\" NoNe\"\n".toList, "memory_size=5=6".toList] := by
  refine (congrArg Text.lines String.toList_append).trans ?_
  repeat rewrite [String.toList_ofList]
  decide +kernel

theorem lines_reopenedFileShorter :
    Text.lines reopenedFileShorter.toList = (Text.lines reopenedFile.toList).eraseIdx 2 := by
  rewrite [lines_reopenedFile]
  refine (congrArg Text.lines String.toList_append).trans ?_
  repeat rewrite [String.toList_ofList]
  decide +kernel

theorem last_valid_assignment_counts_reopened :
    Stands Text.Numeral "memory_size".toList 256 (Text.lines reopenedFile.toList) 64 ∧
    Stands DepthText "max_loop_depth".toList (some 2500) (Text.lines reopenedFile.toList) none ∧
    Text.lines reopenedFileShorter.toList = (Text.lines reopenedFile.toList).eraseIdx 2 ∧
    ¬ Decides Text.Numeral "memory_size".toList (Text.lines reopenedFile.toList) 2 ∧
    (ofFile reopenedFileShorter).memorySize = (ofFile reopenedFile).memorySize ∧
    (∃ title, Header "[é]\r\n".toList title ∧
      Text.Sliced (String.ofList (Text.trim "[é]\r\n".toList)) 1
        (byteWidth (Text.trim "[é]\r\n".toList) - 1) (String.ofList title)) ∧
    Text.Sliced (String.ofList "\"é\"".toList) 1 (byteWidth "\"é\"".toList - 1)
      (String.ofList (unquoted "\"é\"".toList)) := by
  obtain ⟨hheader, -, hmemory, hdepth, htaken, hslice, hquoted⟩ :=
    last_valid_assignment_counts reopenedFile
  have hat : (Text.lines reopenedFile.toList)[2]? = some "memory_size=\"\n".toList := by
    rw [lines_reopenedFile]
    rfl
  have hread : Line.read "memory_size=\"\n".toList
      = .entry "memory_size".toList ['\x22'] := by decide +kernel
  have hplain : ∀ line, (Text.lines reopenedFile.toList)[2]? = some line →
      ∀ title, ¬ Header line title := by
    intro line hline title htitle
    obtain rfl := Option.some.inj (hat.symm.trans hline)
    rw [← hheader, hread] at htitle
    cases htitle
  -- The lone quote is no numeral, so its line does not decide.
  have hother : ¬ Decides Text.Numeral "memory_size".toList (Text.lines reopenedFile.toList) 2 := by
    rintro ⟨value, x, ⟨-, line, hline, hentry⟩, hnumeral, -⟩
    obtain rfl := Option.some.inj (hat.symm.trans hline)
    rw [hread] at hentry
    rw [← (Line.entry.inj hentry).2, ← Text.numeral?_eq_some_iff] at hnumeral
    cases hnumeral
  have hsize : (ofFile reopenedFile).memorySize = 64 := by
    rw [ofFile, lines_reopenedFile]
    decide +kernel
  have hlimit : (ofFile reopenedFile).maxLoopDepth = none := by
    rw [ofFile, lines_reopenedFile]
    decide +kernel
  exact ⟨(hmemory 64).mpr hsize, (hdepth none).mpr hlimit, lines_reopenedFileShorter, hother,
    (htaken _ 2 lines_reopenedFileShorter hplain).1 hother,
    hslice _ (by decide +kernel) (by decide +kernel),
    hquoted _ (by decide) (by decide) (by decide)⟩

end Prairie.Settings
