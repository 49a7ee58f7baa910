/-
  Prairie.Report.Diagnosis
  ────────────────────────
  **FAULT REPORTS.**

  A fault that arises at a token is reported with the index of the token and,
  when the span of the token is known, an excerpt of the source.  The other
  faults are reported by their message.  A report begins with the name of the
  program that gives it, if it has one.
-/
import Prairie.Machine.Fault
import Prairie.Report.Excerpt
import Prairie.Source.Program

namespace Prairie.Report

/-- A report about the token at `index`: the summary, then the excerpt of the
text `shown` around the token where its span is known. -/
def atToken (summary shown : String) (program : Program) (index : Nat) : String :=
  s!"{summary} at token {index}\n" ++
    match program.span? index with
    | none => ""
    | some span => (Excerpt.atOffset span.start shown).render

/-- A message under the name of the program that gives it. -/
def named (name : Option String) (message : String) : String :=
  match name with
  | none => message
  | some name => s!"{name}: {message}"

/-- The report of a fault. -/
def fault (name : Option String) (shown : String) (program : Program) : Fault → String
  | .unmatchedLoopEnd index =>
      atToken (named name "Runtime error: unmatched loop end ')'") shown program index
  | .loopDepthExceeded index limit =>
      atToken (named name s!"Runtime error: loop nesting exceeds {limit} levels") shown program
        index
  | .tapeTooLarge size =>
      named name s!"Configuration error: {(Fault.tapeTooLarge size).message}" ++ "\n"
  | .stepLimitExceeded limit => named name (Fault.stepLimitExceeded limit).message ++ "\n"
  | .canceled => named name Fault.canceled.message ++ "\n"

end Prairie.Report
