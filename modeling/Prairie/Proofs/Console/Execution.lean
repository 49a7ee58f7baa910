/-
  Prairie.Proofs.Console.Execution
  ────────────────────────────────
  **WHAT IS SHOWN IS WHAT WAS RUN.**

  Executing a source shows three things, and none of them is the run itself:
  an exit code, bytes on the output, text on the error channel.  Each is
  fixed by the run that is behind it, for every source and all options, as
  long as the run is over in time:

      code     0  ↔  the run finished
      output   what the run output (or its step table), and a line feed
      errors   the report of the fault, and the dump of the last tape

  The flag of the run is never raised, so a run that fails is out of steps,
  out of memory, or at the first bracket that breaks the nesting of the
  SOURCE, and the caret of its report stands under that bracket.
-/
import Prairie.Console.Execute
import Prairie.Proofs.Machine.Limit
import Prairie.Proofs.Machine.Nesting
import Prairie.Proofs.Machine.Watching
import Prairie.Proofs.Report.Caret

namespace Prairie

namespace Console

/-! ## §1. The run behind an execution. -/

/-- The machine that runs a program under the given options. -/
def machineOf (program : Program) (o : Options) : Machine :=
  { program, settings := o.settings, listener := some {} }

/-- What that machine is asked to do. -/
def requestOf (o : Options) : Request :=
  { traced := o.traced, control := some { maxSteps := o.limits.maxSteps } }

variable {program : Program} {o : Options} {k : Nat} {fault : Fault}

/-- Nobody raises the flag of an executed run. -/
theorem quiet_setup (program : Program) (o : Options) (k : Nat) :
    ((machineOf program o).setup (requestOf o) k).Quiet := by
  refine .inr fun l hl => ?_
  obtain rfl : {} = l := Option.some.inj hl
  rfl

/-- **Why an executed run fails**: at the first violation of the nesting, at the
limit on steps, or for want of a tape. -/
theorem fault_cases
    (h : ((machineOf program o).perform (requestOf o) k).1.ending = .failed fault) :
    (∃ i, program.FirstViolation o.settings.maxLoopDepth i fault) ∨
      (∃ limit, fault = .stepLimitExceeded limit) ∨ ∃ size, fault = .tapeTooLarge size := by
  cases hc : Context.fresh (machineOf program o).settings.memorySize with
  | error fault' =>
      rw [Machine.perform_eq_of_error hc] at h
      injection h with h
      rw [← h, Context.fault_of_fresh hc]
      exact .inr (.inr ⟨_, rfl⟩)
  | ok c =>
      have h0 := Context.steps_of_fresh hc
      rw [Machine.perform_eq_conclude hc] at h
      have hfailed := Outcome.ending_eq_failed_iff.mp h
      rcases Setup.failed_cases h0 hfailed with hfirst | hrefused
      · exact .inl hfirst
      · -- The reins may refuse a token, but the flag stays down.
        rcases Setup.refusal?_cases hrefused with ⟨-, hflag⟩ | hlimit
        · rw [(quiet_setup program o 0).canceled_standing h0] at hflag
          cases hflag
        · exact .inr (.inl hlimit)

/-! ## §2. What is shown of a run. -/

/-- The step table as it is shown; nothing if there is none. -/
def tableText : Option (Array Row) → String
  | none => ""
  | some rows => String.join ((Table.lines rows.toList).map (· ++ "\n"))

/-- The report of an ending; nothing if the program ran to its end. -/
def reportOf (name : Option String) (source : String) : Ending → String
  | .failed fault => Report.fault name source (.ofSource source) fault
  | _ => ""

/-- A run that has handed nothing over shows its table. -/
theorem shownOutput_of_sent_empty {a : Account} (h : a.sent = #[]) :
    shownOutput a = (tableText a.table).toUTF8 := by
  unfold shownOutput
  cases a.table with
  | some rows => rfl
  | none =>
      show ByteArray.mk a.sent = _
      rw [h]
      rfl

/-- A run without a table shows what it has handed over. -/
theorem shownOutput_of_no_table {a : Account} (h : a.table = none) :
    shownOutput a = ⟨a.sent⟩ := by
  unfold shownOutput
  rw [h]

/-- There is a table if one was asked for and there was a tape. -/
theorem table_perform_eq_none_iff (w : Machine) (q : Request) (k : Nat) :
    (w.perform q k).1.table = none ↔
      q.traced = false ∨ ∃ fault, Context.fresh w.settings.memorySize = .error fault := by
  cases hc : Context.fresh w.settings.memorySize with
  | error fault =>
      rw [Machine.perform_eq_of_error hc]
      simp
  | ok c =>
      rw [Machine.perform_eq_conclude hc]
      simp [Machine.conclude]

/-- An untraced run shows the bytes that it has output. -/
theorem shownOutput_of_untraced (program : Program) (h : o.traced = false) (k : Nat) :
    shownOutput ((machineOf program o).perform (requestOf o) k).1
      = ⟨((machineOf program o).perform (requestOf o) k).2.context.output⟩ := by
  have hused : (machineOf program o).Used := .listen {} (.new program o.settings)
  have hrequest : requestOf o = { control := some { maxSteps := o.limits.maxSteps } } := by
    rw [requestOf, h]
  have htable := (table_perform_eq_none_iff (machineOf program o) (requestOf o) k).mpr (.inl h)
  rw [shownOutput_of_no_table htable, hrequest]
  exact congrArg ByteArray.mk (hused.sent_perform rfl _ k)

/-- A traced run keeps its bytes to itself. -/
theorem sent_of_traced (program : Program) (h : o.traced = true) (k : Nat) :
    ((machineOf program o).perform (requestOf o) k).1.sent = #[] := by
  have hrequest : requestOf o
      = { traced := true, control := some { maxSteps := o.limits.maxSteps } } := by
    rw [requestOf, h]
  rw [hrequest]
  exact Machine.sent_perform_of_traced _ _ k

/-- A run that is over is neither suspended nor canceled, so nothing is said
about time. -/
theorem shownEnding_eq_reportOf (name : Option String) (source : String) (l : Limits)
    {ending : Ending} (hover : ending ≠ .suspended) (hflag : ending ≠ .failed .canceled) :
    shownEnding name source (.ofSource source) l ending = reportOf name source ending := by
  cases ending with
  | finished => rfl
  | suspended => exact absurd rfl hover
  | failed fault =>
      cases fault with
      | canceled => exact absurd rfl hflag
      | unmatchedLoopEnd index => rfl
      | loopDepthExceeded index limit => rfl
      | stepLimitExceeded limit => rfl
      | tapeTooLarge size => rfl

/-! ## §3. Executions that are over in time. -/

section

-- The run behind the execution is over within the tokens it may dispatch.
variable {name : Option String} {source : String} {a : Account} {after : Machine}
  (hrun : (machineOf (.ofSource source) o).perform (requestOf o) k = (a, after))

include hrun

/-- A run fails under an execution for a reason that can be reported. -/
theorem ending_ne_canceled : a.ending ≠ .failed .canceled := by
  intro h
  have hending : ((machineOf (.ofSource source) o).perform (requestOf o) k).1.ending
      = .failed .canceled := by
    rw [hrun]
    exact h
  rcases fault_cases hending with ⟨i, hfirst⟩ | ⟨limit, hlimit⟩ | ⟨size, hsize⟩
  · cases hfirst.violates
  · cases hlimit
  · cases hsize

/-- A fault of the nesting is reported with the caret under the first bracket
of the source that breaks it. -/
theorem report_points_at_firstBreak {i : Nat} {c : Char} (h : a.ending = .failed fault)
    (hbracket : fault.bracket? = some (i, c)) (name : Option String) :
    ∃ place x, Text.FirstBreak source.toList o.settings.maxLoopDepth place c ∧
      x = Excerpt.around place source.toList ∧ x.line[x.caret]? = some c ∧
      reportOf name source a.ending
        = s!"{Report.summary name fault} at token {i}\n" ++ ("  " ++ String.ofList x.line
            ++ "\n  " ++ Text.spaces x.caret ++ "^\n") := by
  have hending : ((machineOf (.ofSource source) o).perform (requestOf o) k).1.ending
      = .failed fault := by
    rw [hrun]
    exact h
  rcases fault_cases hending with ⟨j, hfirst⟩ | ⟨limit, rfl⟩ | ⟨size, rfl⟩
  · obtain ⟨place, d, x, hf, hbreak, hx, hcaret, hreport⟩ :=
      Report.fault_points_at_firstBreak hfirst name
    obtain ⟨rfl, rfl⟩ : i = j ∧ c = d := Prod.mk.inj (Option.some.inj (hbracket.symm.trans hf))
    rw [h]
    exact ⟨place, x, hbreak, hx, hcaret, hreport⟩
  · cases hbracket
  · cases hbracket

variable (hk : k ≤ o.allowance) (hover : a.ending ≠ .suspended)

include hk hover

theorem account_eq : account (.ofSource source) o = (a, after) := by
  have h : ((machineOf (.ofSource source) o).perform (requestOf o) k).1.ending ≠ .suspended := by
    rw [hrun]
    exact hover
  have hmore := Machine.perform_eq_of_over h hk
  rw [hrun] at hmore
  exact hmore

/-- **The response is made from the run**, and from nothing else. -/
theorem execute_eq : execute name source o =
    { code := if a.ending = .finished then 0 else 1
      output := shownOutput a ++ "\n".toUTF8
      errors := reportOf name source a.ending
        ++ (if o.dumped then Report.dump after.context.tape else "") } := by
  have haccount := account_eq hrun hk hover
  have hending := shownEnding_eq_reportOf name source o.limits hover (ending_ne_canceled hrun)
  simp only [execute, haccount, hending, hover, ne_eq, not_false_eq_true, decide_true,
    Bool.and_true]

end

end Console

open Console in
/-- **WHAT IS SHOWN IS WHAT WAS RUN.**  For every source, every name and all
options, if the run is over within the tokens that it may dispatch: the code
is 0 if the run finished and otherwise 1.  Untraced, the output is exactly what
the run has output when it ends, and a line feed; traced, it is exactly its
step table, or nothing if there was no tape, and a line feed, and none of the
bytes of the run.  The errors are the report of the fault, if there was one,
and the dump of the tape that the run has left, if it was asked for.  A fault
of the nesting is the first bracket of the source that breaks it, and the
caret of the report stands under that bracket. -/
theorem execute_shows_run (name : Option String) (source : String) (o : Options) (k : Nat)
    (a : Account) (after : Machine)
    (hrun : (machineOf (.ofSource source) o).perform (requestOf o) k = (a, after))
    (hk : k ≤ o.allowance) (hover : a.ending ≠ .suspended) :
    (execute name source o).code = (if a.ending = .finished then 0 else 1) ∧
    (o.traced = false →
      (execute name source o).output = ⟨after.context.output⟩ ++ "\n".toUTF8) ∧
    (o.traced = true →
      (execute name source o).output = (tableText a.table).toUTF8 ++ "\n".toUTF8 ∧
      a.sent = #[] ∧
      (a.table = none ↔ ∃ fault, Context.fresh o.settings.memorySize = .error fault)) ∧
    (execute name source o).errors = reportOf name source a.ending
      ++ (if o.dumped then Report.dump after.context.tape else "") ∧
    (a.ending = .finished → o.dumped = false → (execute name source o).errors = "") ∧
    a.ending ≠ .failed .canceled ∧
    (∀ fault i c, a.ending = .failed fault → fault.bracket? = some (i, c) → ∃ place x,
      Text.FirstBreak source.toList o.settings.maxLoopDepth place c ∧
      x = Excerpt.around place source.toList ∧ x.line[x.caret]? = some c ∧
      reportOf name source a.ending
        = s!"{Report.summary name fault} at token {i}\n" ++ ("  " ++ String.ofList x.line
            ++ "\n  " ++ Text.spaces x.caret ++ "^\n")) := by
  rw [execute_eq hrun hk hover]
  refine ⟨rfl, fun htraced => ?_, fun htraced => ?_, rfl, fun hfinished hdumped => ?_,
    ending_ne_canceled hrun,
    fun fault i c h hbracket => report_points_at_firstBreak hrun h hbracket name⟩
  · have hshown := shownOutput_of_untraced (.ofSource source) htraced k
    rw [hrun] at hshown
    rw [hshown]
  · have hsent := sent_of_traced (.ofSource source) htraced k
    have htable := table_perform_eq_none_iff (machineOf (.ofSource source) o) (requestOf o) k
    rw [hrun] at hsent htable
    refine ⟨?_, hsent, ?_⟩
    · rw [shownOutput_of_sent_empty hsent]
    · rw [htable]
      show o.traced = false ∨ _ ↔ _
      simp [htraced, machineOf]
  · rw [hfinished, hdumped]
    rfl

/-- Wide letters, a byte that is output, and then a bracket too many on the
second line. -/
def strayBracket : String := "héllo\n Buffalo Buffalo. ) ."

/-- The run behind its execution. -/
def strayRun : Account × Machine :=
  (Console.machineOf (.ofSource strayBracket) {}).perform (Console.requestOf {}) 9

open Console in
theorem execute_shows_run_strayBracket :
    strayRun.1.ending = .failed (.unmatchedLoopEnd 4) ∧
    (execute (some "buffalo") strayBracket {}).code = 1 ∧
    (execute (some "buffalo") strayBracket {}).output = ⟨#[1, 10]⟩ ∧
    (execute (some "buffalo") strayBracket {}).errors
      = "buffalo: Runtime error: unmatched loop end \x27)\x27 at token 4\n"
        ++ "  héllo  Buffalo Buffalo. ) .\n" ++ "                          ^\n" ∧
    ∃ place, Text.FirstBreak strayBracket.toList (some 2500) place ')' := by
  have hending : strayRun.1.ending = .failed (.unmatchedLoopEnd 4) := by decide +kernel
  have hbytes : strayRun.2.context.output = #[1] := by decide +kernel
  obtain ⟨hcode, houtput, -, -, -, -, hreport⟩ := execute_shows_run (some "buffalo") strayBracket
    {} 9 strayRun.1 strayRun.2 (Prod.eta strayRun).symm (by decide +kernel) (by rw [hending]; decide)
  refine ⟨hending, ?_, ?_, by decide +kernel, ?_⟩
  · rw [hcode, hending]
    rfl
  · rw [houtput rfl, hbytes]
    decide +kernel
  · obtain ⟨place, x, hbreak, -⟩ := hreport _ 4 ')' hending rfl
    exact ⟨place, hbreak⟩

end Prairie
