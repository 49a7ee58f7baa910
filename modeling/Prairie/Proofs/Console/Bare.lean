/-
  Prairie.Proofs.Console.Bare
  ───────────────────────────
  **A BARE SCRIPT RUNS AS ITS SOURCE DOES.**

  A bare script takes a long way to its run: it is cut into lines, put
  together again, trimmed, and executed only if there is an instruction in
  it.  A script without commands comes out of all this as the text it was, up
  to blanks at its ends:

      read t        = source t, and notes about what looks like a command
      runScript t   = the notes, then execute (trimmed t)

  What trimming takes away makes no token, so the run is the run of `t`.
-/
import Prairie.Console.Script
import Prairie.Proofs.Console.Execution
import Prairie.Proofs.Machine.Commentary
import Prairie.Proofs.Source.Outskirts

namespace Prairie

namespace Console

/-! ## §1. Scripts without commands. -/

/-- No line of the text is a command. -/
def Plain (t : String) : Prop := ∀ line ∈ Text.lines t.toList, Meta.read? line = none

/-- What is said about the lines of a text that look like commands. -/
def remarks (t : String) : String := String.join ((Text.lines t.toList).map Meta.note)

namespace Script

/-- A line that is no command is added to the source. -/
theorem readLine_of_plain {s : Script} {line : List Char} (hs : s.exited = false)
    (h : Meta.read? line = none) : s.readLine line = s.add line := by
  simp [readLine, hs, h]

/-- Lines that are no commands are added one after the other. -/
theorem foldl_readLine_of_plain {s : Script} {ls : List (List Char)} (hs : s.exited = false)
    (h : ∀ line ∈ ls, Meta.read? line = none) :
    ls.foldl readLine s = { s with
      source := s.source ++ String.ofList ls.flatten
      notes := s.notes ++ String.join (ls.map Meta.note) } := by
  induction ls generalizing s with
  | nil => simp
  | cons line ls ih =>
      obtain ⟨hline, hrest⟩ := List.forall_mem_cons.mp h
      have hadd : (s.add line).exited = false := hs
      rw [List.foldl_cons, readLine_of_plain hs hline, ih hadd hrest]
      simp [add, String.append_assoc]

/-- **A script without commands is its own source.** -/
theorem read_of_plain {t : String} (h : Plain t) :
    read t = { source := t, notes := remarks t } := by
  rw [read, foldl_readLine_of_plain rfl h, Text.flatten_lines, String.ofList_toList]
  simp [remarks]

end Script

/-! ## §2. What a script without commands shows. -/

/-- A text that is not empty is submitted as it is. -/
theorem submission?_toUTF8 {t : String} (h : t ≠ "") : submission? t.toUTF8 = some t := by
  have hvalid : String.fromUTF8? t.toUTF8 = some t := by
    unfold String.fromUTF8?
    rw [String.toUTF8_eq_toByteArray, dif_pos t.isValidUTF8]
    rfl
  rw [submission?, hvalid, Option.filter_some]
  simp [h]

theorem submission?_empty : submission? "".toUTF8 = none := by decide +kernel

/-- A script with an instruction shows what executing the trimmed text shows,
behind the remarks; the exit code is lost. -/
theorem runScript_of_instructions {t : String} (hplain : Plain t) (o : Options)
    (h : (Program.ofSource t).hasInstructions = true) :
    runScript t.toUTF8 o = { execute none (Text.trimmed t) o with
      code := 0
      errors := remarks t ++ (execute none (Text.trimmed t) o).errors } := by
  have hne : t ≠ "" := by
    rintro rfl
    cases h
  unfold runScript
  rw [submission?_toUTF8 hne]
  simp only [Script.read_of_plain hplain, executeIfInstructed,
    Program.hasInstructions_ofSource_trimmed, h]
  simp [Response.andThen]

/-- A script without an instruction is not executed. -/
theorem runScript_of_no_instructions {t : String} (hplain : Plain t) (o : Options)
    (h : (Program.ofSource t).hasInstructions = false) :
    runScript t.toUTF8 o = { errors := remarks t } := by
  by_cases hne : t = ""
  · subst hne
    unfold runScript
    rw [submission?_empty]
    rfl
  · unfold runScript
    rw [submission?_toUTF8 hne]
    simp only [Script.read_of_plain hplain, executeIfInstructed,
      Program.hasInstructions_ofSource_trimmed, h]
    simp [Response.andThen]

/-- Trimming a source does not change its run. -/
theorem account_trimmed (t : String) (o : Options) :
    account (.ofSource (Text.trimmed t)) o
      = ((account (.ofSource t) o).1,
          { (account (.ofSource t) o).2 with program := .ofSource (Text.trimmed t) }) := by
  unfold account
  exact Machine.perform_of_tokens (w := machineOf (.ofSource t) o)
    (Program.tokens_ofSource_trimmed t) (requestOf o) o.allowance

/-- The name and the blanks at the ends have no say in what is shown on the
output. -/
theorem output_execute_trimmed (name name' : Option String) (t : String) (o : Options) :
    (execute name (Text.trimmed t) o).output = (execute name' t o).output := by
  show shownOutput (account (.ofSource (Text.trimmed t)) o).1 ++ _ = _
  rw [account_trimmed]
  rfl

end Console

open Console in
/-- **A BARE SCRIPT RUNS AS ITS SOURCE DOES.**  For every text without a line
that is a command, under all settings and limits: if there is an instruction
in it, the script writes to the output what executing the text itself writes,
under whatever name; its run is that of the trimmed text, and it comes to the
same ending as that of the text itself, with the same bytes handed over, step
table, tape, waiting word, output and step count.  If there is no instruction
in it, the script writes nothing to the output. -/
theorem bare_script_runs_source (t : String) (o : Options) (hplain : Plain t) :
    ((Program.ofSource t).hasInstructions = true →
      (∀ name, (runScript t.toUTF8 o).output = (execute name t o).output) ∧
      (runScript t.toUTF8 o).output = (execute none (Text.trimmed t) o).output ∧
      (runScript t.toUTF8 o).errors = remarks t ++ (execute none (Text.trimmed t) o).errors ∧
      (account (.ofSource (Text.trimmed t)) o).1 = (account (.ofSource t) o).1 ∧
      (account (.ofSource (Text.trimmed t)) o).2.context
        = (account (.ofSource t) o).2.context) ∧
    ((Program.ofSource t).hasInstructions = false → (runScript t.toUTF8 o).output = .empty) := by
  refine ⟨fun h => ?_, fun h => ?_⟩
  · rw [runScript_of_instructions hplain o h, account_trimmed]
    exact ⟨fun name => output_execute_trimmed none name t o, rfl, rfl, rfl, rfl⟩
  · rw [runScript_of_no_instructions hplain o h]

/-- A line that looks like a command, wide blanks around it, and text behind
the last literal. -/
def colonLine : String := "\u3000:exits\n Buffalo Buffalo .\n: buff\u2003\n"

open Console in
theorem bare_script_runs_source_colonLine :
    Plain colonLine ∧ (Program.ofSource colonLine).hasInstructions = true ∧
    (runScript colonLine.toUTF8 {}).output = (execute (some "buffalo") colonLine {}).output ∧
    (execute (some "buffalo") colonLine {}).output = ⟨#[1, 10]⟩ ∧
    (account (.ofSource (Text.trimmed colonLine)) {}).1
      = (account (.ofSource colonLine) {}).1 := by
  have hplain : Plain colonLine := by
    unfold Plain
    decide +kernel
  have hinstructed : (Program.ofSource colonLine).hasInstructions = true := by decide +kernel
  obtain ⟨houtput, -, -, hrun, -⟩ := (bare_script_runs_source colonLine {} hplain).1 hinstructed
  exact ⟨hplain, hinstructed, houtput (some "buffalo"), by decide +kernel, hrun⟩

end Prairie
