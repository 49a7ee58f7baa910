/-
  Prairie.Proofs.Console.Lines
  ────────────────────────────
  **WHAT A BARE SCRIPT MEANS, LINE BY LINE.**

  A script is read in one pass that adds lines, drops what it has, writes and
  stops.  What comes of it can be told without the pass, by where its commands
  stand:

      lines     …  :reset  ……………………  :dump  ……………………  :exit  …
                           └ source so far ┘                │
                           └ source in the end ─────────────┘

  The source is what stands between the last reset and the exit and is no
  command; a dump shows what stood there by then; behind the exit nothing is
  read.  Each line read does to this meaning what the pass does
  (`meaning_concat`), so the pass arrives at it (`foldl_readLine`).
-/
import Mathlib.Data.List.DropRight
import Prairie.Proofs.Console.Bare

namespace Prairie

/-! ## §1. Lines. -/

namespace Text

theorem lines_go_eq (cs : List Char) :
    ∀ line : List Char, '\n' ∉ line → ∃ (bodies : List (List Char)) (tail : List Char),
      lines.go line cs = bodies.map (· ++ ['\n']) ++ (if tail = [] then [] else [tail]) ∧
      (∀ body ∈ bodies, '\n' ∉ body) ∧ '\n' ∉ tail := by
  induction cs with
  | nil =>
      intro line hline
      refine ⟨[], line.reverse, ?_, by simp, by simpa using hline⟩
      simp [lines.go]
  | cons c cs ih =>
      intro line hline
      by_cases hc : c = '\n'
      · obtain ⟨bodies, tail, hlines, hbodies, htail⟩ := ih [] (by simp)
        refine ⟨line.reverse :: bodies, tail, ?_, ?_, htail⟩
        · rw [lines.go, if_pos hc, hlines, hc, List.reverse_cons]
          rfl
        · intro body hbody
          obtain rfl | hbody := List.mem_cons.mp hbody
          · simpa using hline
          · exact hbodies body hbody
      · rw [lines.go, if_neg hc]
        exact ih (c :: line) (by simp [hline, Ne.symm hc])

/-- **Lines end where line feeds are**: each line is a body without one and the
line feed behind it, and what is left at the end, if anything, has none. -/
theorem lines_eq (cs : List Char) : ∃ (bodies : List (List Char)) (tail : List Char),
    lines cs = bodies.map (· ++ ['\n']) ++ (if tail = [] then [] else [tail]) ∧
    (∀ body ∈ bodies, '\n' ∉ body) ∧ '\n' ∉ tail :=
  lines_go_eq cs [] (by simp)

end Text

namespace Console

variable {ls : List (List Char)} {line : List Char} {i : Nat}

/-! ## §2. What a list of lines means. -/

/-- Whether some line ends the script. -/
def ended (ls : List (List Char)) : Bool := ls.any fun line => Meta.read? line = some .exit

/-- The lines before the first one that ends the script. -/
def heard (ls : List (List Char)) : List (List Char) :=
  ls.takeWhile fun line => Meta.read? line ≠ some .exit

/-- The lines behind the last one that drops the source. -/
def sinceReset (ls : List (List Char)) : List (List Char) :=
  ls.rtakeWhile fun line => Meta.read? line ≠ some .reset

/-- The source that lines make: those since the last reset that are no
commands. -/
def kept (ls : List (List Char)) : String :=
  String.ofList ((sinceReset ls).filter fun line => Meta.read? line = none).flatten

/-- What the line at an index writes to the output: a dump shows what the lines
before it make. -/
def shown (ls : List (List Char)) (i : Nat) : String :=
  if ls[i]?.bind Meta.read? = some .dump then Text.trimmedEnd (kept (ls.take i)) ++ "\n" else ""

/-- What lines write to the output. -/
def dumps (ls : List (List Char)) : String :=
  String.join ((List.range ls.length).map (shown ls))

/-- What a line writes to the error channel. -/
def said (line : List Char) : String :=
  match Meta.read? line with
  | none => Meta.note line
  | some .help => Meta.helpText .bare
  | some _ => ""

/-- What comes of a script with these lines. -/
def Script.meaning (ls : List (List Char)) : Script where
  source := kept (heard ls)
  exited := ended ls
  output := dumps (heard ls)
  notes := String.join ((heard ls).map said)

/-! ## §3. One more line. -/

theorem kept_concat_text (h : Meta.read? line = none) :
    kept (ls ++ [line]) = kept ls ++ String.ofList line := by
  unfold kept sinceReset
  rw [List.rtakeWhile_concat_pos _ _ _ (by simp [h]), List.filter_append, List.flatten_append,
    String.ofList_append]
  simp [h]

theorem kept_concat_reset (h : Meta.read? line = some .reset) : kept (ls ++ [line]) = "" := by
  unfold kept sinceReset
  rw [List.rtakeWhile_concat_neg _ _ _ (by simp [h])]
  rfl

/-- A command that is no reset leaves the source as it is. -/
theorem kept_concat_command {command : Meta} (h : Meta.read? line = some command)
    (hreset : command ≠ .reset) : kept (ls ++ [line]) = kept ls := by
  unfold kept sinceReset
  rw [List.rtakeWhile_concat_pos _ _ _ (by simp [h, hreset]), List.filter_append,
    List.flatten_append]
  simp [h]

/-- What a line shows does not depend on the lines behind it. -/
theorem shown_append_left (hi : i < ls.length) : shown (ls ++ [line]) i = shown ls i := by
  unfold shown
  rw [List.getElem?_append_left hi, List.take_append_of_le_length (Nat.le_of_lt hi)]

theorem shown_last : shown (ls ++ [line]) ls.length
    = if Meta.read? line = some .dump then Text.trimmedEnd (kept ls) ++ "\n" else "" := by
  unfold shown
  rw [List.getElem?_concat_length, List.take_left, Option.bind_some]

theorem dumps_concat : dumps (ls ++ [line])
    = dumps ls ++
      if Meta.read? line = some .dump then Text.trimmedEnd (kept ls) ++ "\n" else "" := by
  have hbefore : (List.range ls.length).map (shown (ls ++ [line]))
      = (List.range ls.length).map (shown ls) := by
    refine List.map_congr_left fun i hi => ?_
    exact shown_append_left (List.mem_range.mp hi)
  unfold dumps
  rw [List.length_append, List.length_singleton, List.range_succ, List.map_append, hbefore,
    String.join_append, List.map_singleton, shown_last]
  simp [String.join]

theorem heard_eq_self_iff : heard ls = ls ↔ ended ls = false := by
  unfold heard ended
  rw [List.takeWhile_eq_self_iff, List.any_eq_false]
  simp

/-- Behind the exit nothing is heard. -/
theorem heard_concat_of_ended (h : ended ls = true) : heard (ls ++ [line]) = heard ls := by
  unfold heard
  rw [List.takeWhile_append, if_neg]
  intro hlen
  have hself : heard ls = ls := (List.takeWhile_prefix _).eq_of_length hlen
  rw [heard_eq_self_iff.mp hself] at h
  cases h

/-- Before it every line is heard but the exit itself. -/
theorem heard_concat_of_not_ended (h : ended ls = false) : heard (ls ++ [line])
    = if Meta.read? line = some .exit then ls else ls ++ [line] := by
  have hself := heard_eq_self_iff.mpr h
  unfold heard at hself ⊢
  rw [List.takeWhile_append, hself, if_pos rfl]
  by_cases hexit : Meta.read? line = some .exit
  · simp [hexit]
  · simp [hexit]

theorem ended_concat : ended (ls ++ [line]) = (ended ls || Meta.read? line = some .exit) := by
  simp [ended]

namespace Script

theorem readLine_of_exited {s : Script} (hs : s.exited = true) : s.readLine line = s := by
  simp [readLine, hs]

theorem readLine_of_command {s : Script} {command : Meta} (hs : s.exited = false)
    (h : Meta.read? line = some command) : s.readLine line = s.obey command := by
  simp [readLine, hs, h]

/-- **A line does to the meaning what reading it does.** -/
theorem meaning_concat (ls : List (List Char)) (line : List Char) :
    meaning (ls ++ [line]) = (meaning ls).readLine line := by
  have hexited : (meaning ls).exited = ended ls := rfl
  cases hended : ended ls with
  | true =>
      rw [readLine_of_exited (hexited.trans hended)]
      unfold meaning
      rw [heard_concat_of_ended hended, ended_concat, hended, Bool.true_or]
  | false =>
      -- What a line does is told by its command, if it is one.
      have hself := heard_eq_self_iff.mpr hended
      cases h : Meta.read? line with
      | none =>
          rw [readLine_of_plain (hexited.trans hended) h]
          unfold meaning
          rw [heard_concat_of_not_ended hended, ended_concat, hended, hself]
          simp [kept_concat_text h, dumps_concat, h, add, said]
      | some command =>
          rw [readLine_of_command (hexited.trans hended) h]
          unfold meaning
          rw [heard_concat_of_not_ended hended, ended_concat, hended, hself]
          cases command with
          | exit => simp [h, obey]
          | help => simp [kept_concat_command h, dumps_concat, h, obey, said]
          | reset => simp [kept_concat_reset h, dumps_concat, h, obey, said]
          | dump =>
              simp [kept_concat_command h, dumps_concat, h, obey, said, String.append_assoc]

/-- **The pass arrives at the meaning of the lines.** -/
theorem foldl_readLine (ls : List (List Char)) : ls.foldl readLine {} = meaning ls := by
  induction ls using List.reverseRecOn with
  | nil => rfl
  | append_singleton ls line ih =>
      rw [List.foldl_append, ih, meaning_concat]
      rfl

theorem read_eq_meaning (input : String) : read input = meaning (Text.lines input.toList) :=
  foldl_readLine _

end Script

end Console

open Console in
/-- **WHAT A BARE SCRIPT MEANS, LINE BY LINE.**  Any input is its lines one
after the other, and each is a body without a line feed and the line feed behind
it; the last one may lack it.

The script has ended itself just when some line is an exit, and of the lines
before the first one it has kept, in order and as they were, those behind the
last reset that are no commands.  On the output it has shown at each dump what
was kept of the lines before it, trimmed at the back, and a line feed; on the
error channel the help that was asked for and the notes about lines that look
like commands.

So an input without commands is its own source. -/
theorem script_read_by_lines (input : String) :
    ((Text.lines input.toList).flatten = input.toList ∧
      ∃ (bodies : List (List Char)) (tail : List Char),
        Text.lines input.toList
          = bodies.map (· ++ ['\n']) ++ (if tail = [] then [] else [tail]) ∧
        (∀ body ∈ bodies, '\n' ∉ body) ∧ '\n' ∉ tail) ∧
    ((Script.read input).exited = true ↔
      ∃ line ∈ Text.lines input.toList, Meta.read? line = some .exit) ∧
    (Script.read input).source = kept (heard (Text.lines input.toList)) ∧
    (Script.read input).output = dumps (heard (Text.lines input.toList)) ∧
    (Script.read input).notes = String.join ((heard (Text.lines input.toList)).map said) ∧
    ((∀ line ∈ Text.lines input.toList, Meta.read? line = none) →
      (Script.read input).source = input ∧ (Script.read input).exited = false ∧
      (Script.read input).output = "") := by
  refine ⟨⟨Text.flatten_lines _, Text.lines_eq _⟩, ?_, ?_, ?_, ?_, fun hplain => ?_⟩
  · rw [Script.read_eq_meaning]
    show ended _ = true ↔ _
    unfold ended
    rw [List.any_eq_true]
    simp
  · rw [Script.read_eq_meaning]
    rfl
  · rw [Script.read_eq_meaning]
    rfl
  · rw [Script.read_eq_meaning]
    rfl
  · rw [Script.read_of_plain hplain]
    exact ⟨rfl, rfl, rfl⟩

/-- Every kind of line: text before a reset, a dump among the text behind it, a
command with wide blanks, one that is none, and text behind the exit. -/
def everyLine : String :=
  "(\n:reset\r\nBuffalo\n\u3000:dump \n: help\n:exits\n.\n:quit\n:dump\n("

open Console in
theorem script_read_by_lines_everyLine :
    (Script.read everyLine).exited = true ∧
    (Script.read everyLine).source = "Buffalo\n:exits\n.\n" ∧
    (Script.read everyLine).output = "Buffalo\n" ∧
    Plain colonLine ∧ (Script.read colonLine).source = colonLine := by
  obtain ⟨-, hexited, hsource, houtput, -⟩ := script_read_by_lines everyLine
  have hplain : Plain colonLine := by
    unfold Plain
    decide +kernel
  refine ⟨hexited.mpr ⟨":quit\n".toList, by decide +kernel, by decide +kernel⟩, ?_, ?_, hplain, ?_⟩
  · rw [hsource]
    decide +kernel
  · rw [houtput]
    decide +kernel
  · exact ((script_read_by_lines colonLine).2.2.2.2.2 hplain).1

end Prairie
