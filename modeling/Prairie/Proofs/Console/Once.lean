/-
  Prairie.Proofs.Console.Once
  ───────────────────────────
  **WHERE A SESSION FOR ONE PROGRAM ENDS.**

  A session can be asked to end behind the first program.  Submissions in
  front of it pass:

      blanks, help, reset    nothing to show
      a dump                 nothing either, for nothing is kept yet

  The first submission that does not pass closes the session, and whether there
  is an instruction in it is not asked.  A text of comments alone ends the
  session as a program does, so the first text that would be executed is
  executed if and only if no such text stands in front of it.
-/
import Prairie.Proofs.Console.Submissions

namespace Prairie.Console

variable {before : List String} {t : String}

/-! ## §1. Submissions that pass. -/

/-- No session ends with the submission: it is no program, and no command to
exit. -/
def Passing (t : String) : Prop := ¬ IsProgram t ∧ Meta.read? t.toList ≠ some .exit

/-- What does not pass closes a session for one program. -/
def Closing (t : String) : Prop := IsProgram t ∨ Meta.read? t.toList = some .exit

namespace Editor

/-- In front of all programs a submission that passes shows nothing on the
output and leaves nothing behind. -/
theorem submit_of_passing (h : Passing t) (once : Bool) (o : Options) :
    ∃ errors, submit {} once o t = { editor := {}, shown := { errors } } := by
  cases hread : Meta.read? t.toList with
  | none =>
      have hblank : Text.trim t.toList = [] := by
        by_contra hne
        exact h.1 ⟨hne, hread⟩
      exact ⟨"", submit_of_blank hblank⟩
  | some command =>
      rw [submit_of_command hread]
      cases command with
      | exit => exact absurd hread h.2
      | help => exact ⟨Meta.helpText .editor, rfl⟩
      | reset => exact ⟨"", rfl⟩
      | dump => exact ⟨"", rfl⟩

/-- **A session goes on behind submissions that pass**, as if it began there. -/
theorem output_session_of_passing (h : ∀ u ∈ before, Passing u) (once : Bool) (o : Options)
    (rest : List String) :
    (session {} once o (before ++ rest)).output = (session {} once o rest).output := by
  induction before with
  | nil => rfl
  | cons u before ih =>
      obtain ⟨hu, hbefore⟩ := List.forall_mem_cons.mp h
      obtain ⟨errors, hsubmit⟩ := submit_of_passing hu once o
      rw [List.cons_append, session, hsubmit, ← ih hbefore]
      exact ByteArray.empty_append

/-! ## §2. Submissions that do not. -/

theorem ended_submit_of_closing (h : Closing t) (e : Editor) (o : Options) :
    (e.submit true o t).ended = true := by
  rcases h with hprogram | hexit
  · rw [submit_of_program hprogram]
  · rw [submit_of_exit hexit]

/-- The session shows what comes of the submission that ends it. -/
theorem output_once_of_closing (h : Closing t) (e : Editor) (o : Options) (behind : List String) :
    (e.session true o (t :: behind)).output = (e.submit true o t).shown.output := by
  rw [session]
  dsimp only
  rw [if_pos (ended_submit_of_closing h e o)]

theorem output_once_of_executed (h : IsExecuted t) (e : Editor) (o : Options)
    (behind : List String) :
    (e.session true o (t :: behind)).output = (execute none (Text.trimmed t) o).output := by
  rw [output_once_of_closing (.inl h.isProgram), output_submit_of_program h.isProgram,
    executeIfInstructed_trimmed_of_executed h]

/-- **What is not executed ends the session in silence.** -/
theorem output_once_of_not_executed (h : Closing t) (hnot : ¬ IsExecuted t) (e : Editor)
    (o : Options) (behind : List String) : (e.session true o (t :: behind)).output = .empty := by
  rw [output_once_of_closing h]
  rcases h with hprogram | hexit
  · rw [output_submit_of_program hprogram,
      executeIfInstructed_trimmed_of_not_executed hprogram hnot]
  · rw [submit_of_exit hexit]

/-- **A text of comments ends the session**, whatever stands around it and is
not executed either. -/
theorem output_once_of_idle_program (hidle : ∀ u ∈ before, ¬ IsExecuted u)
    (hprogram : ∃ u ∈ before, IsProgram u) (o : Options) (rest : List String) :
    (session {} true o (before ++ rest)).output = .empty := by
  induction before with
  | nil =>
      obtain ⟨u, hu, -⟩ := hprogram
      exact absurd hu List.not_mem_nil
  | cons u before ih =>
      obtain ⟨hu, hbefore⟩ := List.forall_mem_cons.mp hidle
      -- The first program closes the session, be it `u` or a later one.
      by_cases hclosing : Closing u
      · rw [List.cons_append, output_once_of_not_executed hclosing hu]
      · obtain ⟨hnone, hexit⟩ := not_or.mp hclosing
        have hlater : ∃ u ∈ before, IsProgram u := by
          obtain ⟨v, hv, hp⟩ := hprogram
          rcases List.mem_cons.mp hv with rfl | hv
          · exact absurd hp hnone
          · exact ⟨v, hv, hp⟩
        have hpass : ∀ v ∈ [u], Passing v := List.forall_mem_singleton.mpr ⟨hnone, hexit⟩
        have hgoes := output_session_of_passing hpass true o (before ++ rest)
        rw [List.singleton_append] at hgoes
        rw [List.cons_append, hgoes, ih hbefore hlater]

end Editor

/-- An execution shows a line feed at least. -/
theorem size_output_execute_pos (name : Option String) (source : String) (o : Options) :
    0 < (execute name source o).output.size := by
  have houtput : (execute name source o).output
      = shownOutput (account (.ofSource source) o).1 ++ "\n".toUTF8 := rfl
  have hfeed : "\n".toUTF8.size = 1 := by decide
  rw [houtput, ByteArray.size_append, hfeed]
  omega

end Prairie.Console

namespace Prairie

open Console Console.Editor CommandLine

/-- **A SESSION FOR ONE PROGRAM ENDS BEHIND THE FIRST ONE SUBMITTED**, executed
or not.  For every sequence of submissions to an editor that is asked to end
behind the first program: the session ends well.  If every submission passes,
it ends behind the last one, with a line feed.  The first submission that does
not pass ends it: what follows makes no difference, and the output is what
executing the text alone shows if it is executed, and nothing otherwise.  So
where a text is the first one that would be executed, and no command to exit
stands in front of it, it is executed if and only if no text that is taken for
a program stands in front of it. -/
theorem once_ends_behind_first_program {flag : Option Mode} {s : Surroundings}
    (hmode : s.mode flag = .ok .editor) (honce : s.environment "BUFFALO_REPL_ONCE" = some "1")
    (name : String) :
    (respondConsole name flag s).code = 0 ∧
    ((∀ t ∈ s.submissions, Passing t) → (respondConsole name flag s).output = "\n".toUTF8) ∧
    (∀ before t behind, s.submissions = before ++ t :: behind → (∀ u ∈ before, Passing u) →
      Closing t →
      (∀ behind', respondConsole name flag { s with submissions := before ++ t :: behind' }
        = respondConsole name flag s) ∧
      (IsExecuted t → (respondConsole name flag s).output
        = (execute none (Text.trimmed t) s.consoleOptions).output) ∧
      (¬ IsExecuted t → (respondConsole name flag s).output = .empty)) ∧
    ∀ before t behind, s.submissions = before ++ t :: behind →
      (∀ u ∈ before, ¬ IsExecuted u ∧ Meta.read? u.toList ≠ some .exit) → IsExecuted t →
      ((respondConsole name flag s).output
          = (execute none (Text.trimmed t) s.consoleOptions).output ↔
        ∀ u ∈ before, ¬ IsProgram u) := by
  have htrue : s.once = true := by simp [Surroundings.once, honce]
  have hsession := respondConsole_of_editor hmode name
  rw [htrue] at hsession
  have hhere : respondConsole name flag s = session {} true s.consoleOptions s.submissions :=
    hsession s.submissions
  refine ⟨?_, fun hpass => ?_, fun before t behind hsplit hpass hclosing => ⟨fun behind' => ?_,
    fun hexecuted => ?_, fun hnot => ?_⟩, fun before t behind hsplit hidle hexecuted => ?_⟩
  · rw [hhere, code_session]
  · rw [hhere, ← List.append_nil s.submissions, output_session_of_passing hpass]
    rfl
  · have hsame := session_append_of_ended (fun e => ended_submit_of_closing hclosing e s.consoleOptions)
      {} before
    rw [hsession, hsame behind', ← hsame behind, ← hsplit, hhere]
  · rw [hhere, hsplit, output_session_of_passing hpass, output_once_of_executed hexecuted]
  · rw [hhere, hsplit, output_session_of_passing hpass, output_once_of_not_executed hclosing hnot]
  · rw [hhere, hsplit]
    constructor
    · intro houtput u hu hprogram
      have hempty := output_once_of_idle_program (fun v hv => (hidle v hv).1) ⟨u, hu, hprogram⟩
        s.consoleOptions (t :: behind)
      have hsize := congrArg ByteArray.size (houtput.symm.trans hempty)
      exact absurd hsize (Nat.ne_of_gt (size_output_execute_pos _ _ _))
    · intro hnone
      rw [output_session_of_passing fun u hu => ⟨hnone u hu, (hidle u hu).2⟩,
        output_once_of_executed hexecuted]

/-- A dump of nothing, a text of comments alone, and a program behind it, in an
editor that is asked to end behind the first program. -/
def remarkFirst : Surroundings where
  environment := fun name => if name = "BUFFALO_REPL_ONCE" then some "1" else none
  files := fun _ => .error .missing
  terminal := true
  submissions := [":dump", "note only", "Buffalo Buffalo ."]

/-- Nothing in front of the program is executed, and no command to exit. -/
theorem idle_before_program : ∀ u ∈ [":dump", "note only"], ¬ IsExecuted u ∧
    Meta.read? u.toList ≠ some .exit := by
  unfold IsExecuted
  decide +kernel

theorem isExecuted_program : IsExecuted "Buffalo Buffalo ." := by
  unfold IsExecuted
  decide +kernel

theorem once_ends_behind_first_program_remark :
    (respondConsole "buffalo" none remarkFirst).output = .empty ∧
    (respondConsole "buffalo" none remarkFirst).output
      ≠ (execute none (Text.trimmed "Buffalo Buffalo .") remarkFirst.consoleOptions).output := by
  have hnoted : IsProgram "note only" := by
    unfold IsProgram
    decide +kernel
  have hmode : remarkFirst.mode none = .ok .editor := rfl
  obtain ⟨-, -, hfirst, hiff⟩ := once_ends_behind_first_program hmode (by decide) "buffalo"
  constructor
  · obtain ⟨-, -, hsilent⟩ := hfirst [":dump"] "note only" ["Buffalo Buffalo ."] rfl
      (by unfold Passing IsProgram; decide +kernel) (.inl hnoted)
    exact hsilent (by unfold IsExecuted; decide +kernel)
  · rw [ne_eq, hiff [":dump", "note only"] _ [] rfl idle_before_program isExecuted_program]
    intro hnone
    exact hnone "note only" (by decide) hnoted

/-- **A session for one program can end before a program is executed**, with
neither a command to exit nor the last submission in front of the program. -/
theorem once_can_end_unexecuted :
    ¬ ∀ (name : String) (flag : Option Mode) (s : Surroundings),
      s.mode flag = .ok .editor → s.environment "BUFFALO_REPL_ONCE" = some "1" →
      ∀ before t behind, s.submissions = before ++ t :: behind →
        (∀ u ∈ before, ¬ IsExecuted u ∧ Meta.read? u.toList ≠ some .exit) → IsExecuted t →
        ∃ front, (respondConsole name flag s).output
          = front ++ (execute none (Text.trimmed t) s.consoleOptions).output := by
  intro h
  obtain ⟨front, houtput⟩ := h "buffalo" none remarkFirst rfl (by decide) [":dump", "note only"]
    "Buffalo Buffalo ." [] rfl idle_before_program isExecuted_program
  have hempty : (respondConsole "buffalo" none remarkFirst).output = .empty := by decide +kernel
  have hsize := congrArg ByteArray.size (hempty.symm.trans houtput)
  have hpos := size_output_execute_pos none (Text.trimmed "Buffalo Buffalo .")
    remarkFirst.consoleOptions
  rw [ByteArray.size_append, ByteArray.size_empty] at hsize
  omega

end Prairie
