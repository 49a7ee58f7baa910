/-
  Prairie.Proofs.Console.Submissions
  ──────────────────────────────────
  **WHAT EACH SUBMISSION ADDS TO THE OUTPUT.**

  The output of a session is put together from what its submissions add to
  it, in order:

      an executed text   what executing the trimmed text alone shows
      a dump             the text that is kept, or nothing
      anything else      nothing

  Of all that was submitted before, a program finds nothing, and a dump finds
  one text.  A session reaches its submissions up to the first command to exit;
  if there is none, it ends behind the last one with a line feed.
-/
import Prairie.CommandLine.Respond
import Prairie.Proofs.Console.Execution
import Prairie.Proofs.Console.Recall

namespace Prairie.Console

variable {o : Options} {before : List String} {t : String} {shown shown' : ByteArray}

/-! ## §1. One submission. -/

/-- What a submission adds to the output of a session behind earlier ones. -/
inductive Adds (o : Options) (before : List String) (t : String) : ByteArray → Prop
  /-- A program shows what executing it alone shows. -/
  | executed (h : IsExecuted t) : Adds o before t (execute none (Text.trimmed t) o).output
  /-- A dump shows the last program submitted, if there is one. -/
  | dumped {shown : ByteArray} (h : Meta.read? t.toList = some .dump)
      (hshown : Recalls IsProgram before shown) : Adds o before t shown
  /-- Anything else shows nothing. -/
  | silent (h : ¬ IsExecuted t) (hdump : Meta.read? t.toList ≠ some .dump) : Adds o before t .empty

/-- There is one text that a dump can recall. -/
theorem Recalls.unique {p : String → Prop} (h : Recalls p before shown)
    (h' : Recalls p before shown') : shown = shown' := by
  by_cases hsome : ∃ u, LastOf p before u
  · obtain ⟨u, hu⟩ := hsome
    rw [h.1 u hu, h'.1 u hu]
  · rw [h.2 fun u hu => hsome ⟨u, hu⟩, h'.2 fun u hu => hsome ⟨u, hu⟩]

theorem IsExecuted.read?_ne (h : IsExecuted t) (command : Meta) :
    Meta.read? t.toList ≠ some command := by
  rw [h.1]
  exact (Option.some_ne_none command).symm

/-- **A submission adds one thing only.** -/
theorem Adds.unique (h : Adds o before t shown) (h' : Adds o before t shown') : shown = shown' := by
  cases h with
  | executed h =>
      cases h' with
      | executed _ => rfl
      | dumped hdump _ => exact absurd hdump (h.read?_ne _)
      | silent hnot _ => exact absurd h hnot
  | dumped hdump hshown =>
      cases h' with
      | executed h => exact absurd hdump (h.read?_ne _)
      | dumped _ hshown' => exact hshown.unique hshown'
      | silent _ hnot => exact absurd hdump hnot
  | silent hnot hnodump =>
      cases h' with
      | executed h => exact absurd h hnot
      | dumped hdump _ => exact absurd hdump hnodump
      | silent _ _ => rfl

theorem executeIfInstructed_trimmed_of_executed (h : IsExecuted t) (o : Options) :
    executeIfInstructed (Text.trimmed t) o = execute none (Text.trimmed t) o := by
  have hinstructed := h.2
  rw [← Program.hasInstructions_ofSource_trimmed] at hinstructed
  rw [executeIfInstructed, Text.trimmed_trimmed, if_pos hinstructed]

theorem executeIfInstructed_trimmed_of_not_executed (h : IsProgram t) (hnot : ¬ IsExecuted t)
    (o : Options) : executeIfInstructed (Text.trimmed t) o = {} := by
  have hinstructed : ¬ (Program.ofSource (Text.trimmed t)).hasInstructions = true := by
    rw [Program.hasInstructions_ofSource_trimmed]
    exact fun hyes => hnot ⟨h.2, hyes⟩
  rw [executeIfInstructed, Text.trimmed_trimmed, if_neg hinstructed]

/-- An execution that is over in time shows the bytes of its run, up to the end
or to the fault. -/
theorem output_execute_of_over {name : Option String} {source : String} {a : Account}
    {after : Machine} (haccount : account (.ofSource source) o = (a, after))
    (huntraced : o.traced = false) (hover : a.ending ≠ .suspended) :
    (a.ending = .finished ∨ ∃ fault, a.ending = .failed fault ∧ fault ≠ .canceled) ∧
    (execute name source o).output = ⟨after.context.output⟩ ++ "\n".toUTF8 := by
  have hrun : (machineOf (.ofSource source) o).perform (requestOf o) o.allowance
      = (a, after) := haccount
  constructor
  · cases hending : a.ending with
    | finished => exact .inl rfl
    | suspended => exact absurd hending hover
    | failed fault =>
        refine .inr ⟨fault, rfl, ?_⟩
        rintro rfl
        exact ending_ne_canceled hrun hending
  · have hbytes := shownOutput_of_untraced (.ofSource source) huntraced o.allowance
    rw [hrun] at hbytes
    rw [execute_eq hrun le_rfl hover, hbytes]

namespace Editor

/-- A program adds what it shows when it is executed, if it is. -/
theorem output_submit_of_program (h : IsProgram t) (e : Editor) (once : Bool) (o : Options) :
    (e.submit once o t).shown.output = (executeIfInstructed (Text.trimmed t) o).output := by
  rw [submit_of_program h]
  exact ByteArray.empty_append

/-- **What one submission adds**, whatever was submitted before. -/
theorem adds_submit (o : Options) (before : List String) (t : String) :
    Adds o before t ((after {} o before).submit false o t).shown.output := by
  cases hread : Meta.read? t.toList with
  | none =>
      have hnodump : Meta.read? t.toList ≠ some .dump := by
        rw [hread]
        decide
      -- Blanks are left alone, and only instructions make an execution.
      by_cases hblank : Text.trim t.toList = []
      · rw [submit_of_blank hblank]
        exact .silent (fun h => h.isProgram.1 hblank) hnodump
      · rw [output_submit_of_program ⟨hblank, hread⟩]
        by_cases hexecuted : IsExecuted t
        · rw [executeIfInstructed_trimmed_of_executed hexecuted]
          exact .executed hexecuted
        · rw [executeIfInstructed_trimmed_of_not_executed ⟨hblank, hread⟩ hexecuted]
          exact .silent hexecuted hnodump
  | some command =>
      rw [submit_of_command hread]
      have hnot : ¬ IsExecuted t := fun h => h.read?_ne command hread
      cases command with
      | dump => exact .dumped hread (recalls_dumped o before)
      | exit => exact .silent hnot (by rw [hread]; decide)
      | help => exact .silent hnot (by rw [hread]; decide)
      | reset => exact .silent hnot (by rw [hread]; decide)

end Editor

/-! ## §2. All submissions. -/

/-- What submissions add to the output behind earlier ones, one after the
other. -/
inductive Transcript (o : Options) : List String → List String → ByteArray → Prop
  | nil {before : List String} : Transcript o before [] .empty
  | cons {before ts : List String} {t : String} {part shown : ByteArray}
      (hpart : Adds o before t part) (hrest : Transcript o (before ++ [t]) ts shown) :
      Transcript o before (t :: ts) (part ++ shown)

/-- **Submissions have one transcript only.** -/
theorem Transcript.unique {ts : List String} (h : Transcript o before ts shown)
    (h' : Transcript o before ts shown') : shown = shown' := by
  induction h generalizing shown' with
  | nil =>
      cases h' with
      | nil => rfl
  | cons hpart hrest ih =>
      cases h' with
      | cons hpart' hrest' => rw [hpart.unique hpart', ih hrest']

namespace Editor

/-- **What a session shows of submissions is their transcript.** -/
theorem transcript_shownAfter (o : Options) (before ts : List String) :
    Transcript o before ts ((after {} o before).shownAfter o ts) := by
  induction ts generalizing before with
  | nil => exact .nil
  | cons t ts ih =>
      -- The rest is submitted behind `t`, to what the session keeps by then.
      have hrest := ih (before ++ [t])
      rw [after_concat] at hrest
      exact .cons (adds_submit o before t) hrest

/-! ## §3. How a session ends. -/

/-- In either way a session ends well. -/
theorem code_session (e : Editor) (once : Bool) (o : Options) (ts : List String) :
    (e.session once o ts).code = 0 := by
  induction ts generalizing e with
  | nil => rfl
  | cons t ts ih =>
      rw [session]
      dsimp only
      split
      · rfl
      · simp only [Response.andThen, ih]

/-- What follows a submission that ends the session is not looked at. -/
theorem session_append_of_ended (hended : ∀ e : Editor, (e.submit once o t).ended = true)
    (e : Editor) (before behind : List String) :
    e.session once o (before ++ t :: behind) = e.session once o (before ++ [t]) := by
  induction before generalizing e with
  | nil =>
      rw [List.nil_append, List.nil_append, session, session]
      dsimp only
      rw [if_pos (hended e), if_pos (hended e)]
  | cons u before ih =>
      rw [List.cons_append, List.cons_append, session, session]
      dsimp only
      rw [ih]

/-- The submissions that a session reaches: those in front of the first command
to exit. -/
def reached (ts : List String) : List String :=
  ts.takeWhile fun t => Meta.read? t.toList ≠ some .exit

theorem ne_exit_of_mem_reached {ts : List String} (h : t ∈ reached ts) :
    Meta.read? t.toList ≠ some .exit := by
  have hkept := List.mem_takeWhile_imp (p := fun t : String => Meta.read? t.toList ≠ some .exit) h
  exact of_decide_eq_true hkept

/-- Either all submissions are reached, or a command to exit follows those that
are. -/
theorem reached_cases (ts : List String) : reached ts = ts ∨
    ∃ exit behind, ts = reached ts ++ exit :: behind ∧ Meta.read? exit.toList = some .exit := by
  induction ts with
  | nil => exact .inl rfl
  | cons t ts ih =>
      by_cases hexit : Meta.read? t.toList = some .exit
      · have hnone : reached (t :: ts) = [] :=
          List.takeWhile_cons_of_neg (by rw [hexit]; decide)
        exact .inr ⟨t, ts, by rw [hnone]; rfl, hexit⟩
      · have hcons : reached (t :: ts) = t :: reached ts :=
          List.takeWhile_cons_of_pos (decide_eq_true hexit)
        rcases ih with h | ⟨exit, behind, h, hread⟩
        · exact .inl (by rw [hcons, h])
        · refine .inr ⟨exit, behind, ?_, hread⟩
          rw [hcons, List.cons_append, ← h]

/-- A command to exit ends every session and adds nothing. -/
theorem submit_of_exit (h : Meta.read? t.toList = some .exit) (e : Editor) (once : Bool)
    (o : Options) : e.submit once o t = { editor := e, ended := true } := by
  rw [submit_of_command h]
  rfl

theorem output_session_of_exit (h : Meta.read? t.toList = some .exit) (e : Editor) (once : Bool)
    (o : Options) (behind : List String) :
    (e.session once o (t :: behind)).output = .empty := by
  rw [session, submit_of_exit h]
  rfl

end Editor

end Prairie.Console

namespace Prairie

open Console Console.Editor CommandLine

/-- In the editor the console is a session, whatever is submitted. -/
theorem CommandLine.respondConsole_of_editor {flag : Option Mode} {s : Surroundings}
    (hmode : s.mode flag = .ok .editor) (name : String) (ts : List String) :
    respondConsole name flag { s with submissions := ts }
      = session {} s.once s.consoleOptions ts := by
  have hsame : ({ s with submissions := ts } : Surroundings).mode flag = .ok .editor := hmode
  rw [respondConsole, hsame]
  rfl

/-- **SUBMISSIONS DO NOT MEET.**  For every sequence of submissions to the editor
that may hold any number of programs: the session ends well, at the first
command to exit or else behind the last submission, with a line feed.  What it
has written to the output by then is the one transcript of the submissions
reached: a text that is executed has added what executing the trimmed text alone
shows, whatever came before it, a dump the text that is kept or nothing, and
everything else nothing.  What follows the command to exit makes no difference.
If the run of an executed text is over in time, the text has added the bytes
that its run has output, up to the end or to the fault, and a line feed. -/
theorem editor_output_is_transcript {flag : Option Mode} {s : Surroundings}
    (hmode : s.mode flag = .ok .editor) (honce : s.environment "BUFFALO_REPL_ONCE" ≠ some "1")
    (name : String) :
    (respondConsole name flag s).code = 0 ∧
    (∃ shown, Transcript s.consoleOptions [] (reached s.submissions) shown ∧
      (∀ other, Transcript s.consoleOptions [] (reached s.submissions) other → other = shown) ∧
      ((reached s.submissions = s.submissions ∧
          (respondConsole name flag s).output = shown ++ "\n".toUTF8) ∨
        ∃ exit behind, s.submissions = reached s.submissions ++ exit :: behind ∧
          Meta.read? exit.toList = some .exit ∧
          (respondConsole name flag s).output = shown ∧
          ∀ behind', respondConsole name flag
            { s with submissions := reached s.submissions ++ exit :: behind' }
              = respondConsole name flag s)) ∧
    ∀ t ∈ reached s.submissions, IsExecuted t → ∀ a after,
      account (.ofSource (Text.trimmed t)) s.consoleOptions = (a, after) →
      a.ending ≠ .suspended →
      (a.ending = .finished ∨ ∃ fault, a.ending = .failed fault ∧ fault ≠ .canceled) ∧
      (execute none (Text.trimmed t) s.consoleOptions).output
        = ⟨after.context.output⟩ ++ "\n".toUTF8 := by
  have hfalse : s.once = false := by simp [Surroundings.once, honce]
  have hsession := respondConsole_of_editor hmode name
  rw [hfalse] at hsession
  have hhere : respondConsole name flag s = session {} false s.consoleOptions s.submissions :=
    hsession s.submissions
  have htranscript := transcript_shownAfter s.consoleOptions [] (reached s.submissions)
  have hshown := fun behind => output_session_append {} s.consoleOptions (reached s.submissions)
    behind fun t ht => ne_exit_of_mem_reached ht
  refine ⟨?_, ⟨_, htranscript, fun other h => h.unique htranscript, ?_⟩, ?_⟩
  · rw [hhere, code_session]
  · rcases reached_cases s.submissions with hall | ⟨exit, behind, hsplit, hexit⟩
    · refine .inl ⟨hall, ?_⟩
      have hend := hshown []
      rw [List.append_nil, hall] at hend
      rw [hhere, hend, hall]
      rfl
    · refine .inr ⟨exit, behind, hsplit, hexit, ?_, fun behind' => ?_⟩
      · have hend := hshown (exit :: behind)
        rw [← hsplit, output_session_of_exit hexit, ByteArray.append_empty] at hend
        rw [hhere, hend]
        rfl
      · have hended : ∀ e : Editor, (e.submit false s.consoleOptions exit).ended = true := by
          intro e
          rw [submit_of_exit hexit]
        have hsame := session_append_of_ended hended {} (reached s.submissions)
        rw [hsession, hsame behind', ← hsame behind, ← hsplit, hhere]
  · intro t _ _ a after haccount hover
    exact output_execute_of_over haccount rfl hover

/-- A program that fails behind its first byte. -/
def failing : String := " Buffalo Buffalo . )"

/-- A program that fails, comments, a dump of them, a program whose first line
would be a command by itself, a dump of it, and an exit with a program behind
it. -/
def mixed : Surroundings where
  environment := fun _ => none
  files := fun _ => .error .missing
  terminal := true
  submissions := [failing, "note only", ":dump", ":reset\nbuffalo .", " : dump ", ":exit",
    "Buffalo Buffalo ."]

/-- The run of the program that fails, alone. -/
def failingRun : Account × Machine :=
  account (.ofSource (Text.trimmed failing)) mixed.consoleOptions

theorem editor_output_is_transcript_mixed :
    (respondConsole "buffalo" none mixed).code = 0 ∧
    (respondConsole "buffalo" none mixed).output
      = "\x01\nnote only\n\x00\n:reset\nbuffalo .\n".toUTF8 ∧
    Transcript mixed.consoleOptions [] (mixed.submissions.take 5)
      "\x01\nnote only\n\x00\n:reset\nbuffalo .\n".toUTF8 ∧
    failingRun.1.ending = .failed (.unmatchedLoopEnd 3) ∧
    (execute none (Text.trimmed failing) mixed.consoleOptions).output
      = ⟨failingRun.2.context.output⟩ ++ "\n".toUTF8 := by
  have houtput : (respondConsole "buffalo" none mixed).output
      = "\x01\nnote only\n\x00\n:reset\nbuffalo .\n".toUTF8 := by decide +kernel
  have hreached : reached mixed.submissions = mixed.submissions.take 5 := by decide +kernel
  have hending : failingRun.1.ending = .failed (.unmatchedLoopEnd 3) := by decide +kernel
  have hexecuted : IsExecuted failing := by
    unfold IsExecuted
    decide +kernel
  have hmode : mixed.mode none = .ok .editor := rfl
  obtain ⟨hcode, ⟨shown, htranscript, -, hends⟩, hruns⟩ :=
    editor_output_is_transcript hmode (by decide) "buffalo"
  rw [hreached] at htranscript hends hruns
  have hfailing := hruns failing List.mem_cons_self hexecuted failingRun.1 failingRun.2
    (Prod.eta failingRun).symm (by rw [hending]; decide)
  rcases hends with ⟨hall, -⟩ | ⟨-, -, -, -, hshown, -⟩
  · exact absurd hall (by decide)
  · rw [← hshown, houtput] at htranscript
    exact ⟨hcode, houtput, htranscript, hending, hfailing.2⟩

end Prairie
