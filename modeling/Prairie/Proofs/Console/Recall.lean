/-
  Prairie.Proofs.Console.Recall
  ─────────────────────────────
  **WHAT A DUMP RECALLS.**

  A session keeps one text between submissions, and three kinds of submission
  treat it in three ways:

      a program         the text becomes the trimmed submission
      a reset           the text is forgotten
      anything else     the text stays

  So a dump shows the last program that was SUBMITTED since the last reset.
  Whether a program is executed is decided later, by the instructions in it,
  and has no say in what is kept.  A dump shows the last program that was
  EXECUTED if and only if that is the last one submitted: a text of comments
  alone is never executed, and still it takes the place of the program that
  was.
-/
import Mathlib.Data.List.Induction
import Prairie.Console.Editor
import Prairie.Proofs.Source.Outskirts

namespace Prairie.Console

variable {p q : String → Prop} {before : List String} {t u : String}

/-! ## §1. Kinds of submissions. -/

/-- A session takes a text for a program: it is not blank and no command. -/
def IsProgram (text : String) : Prop :=
  Text.trim text.toList ≠ [] ∧ Meta.read? text.toList = none

/-- A session executes a text: it is no command and there is an instruction in
it. -/
def IsExecuted (text : String) : Prop :=
  Meta.read? text.toList = none ∧ (Program.ofSource text).hasInstructions = true

/-- Blanks around a command do not count. -/
theorem Meta.read?_trim (line : List Char) : read? (Text.trim line) = read? line := by
  unfold read? afterColon?
  rw [Text.trim_trim]

/-- A blank text is no command. -/
theorem Meta.read?_of_blank {line : List Char} (h : Text.trim line = []) : read? line = none := by
  rw [← read?_trim, h]
  rfl

/-- Trimming leaves something of a text that is not blank. -/
theorem trimmed_ne_empty (h : Text.trim t.toList ≠ []) : Text.trimmed t ≠ "" := by
  intro hempty
  rw [← Text.toList_trimmed, hempty] at h
  exact h rfl

theorem IsExecuted.isProgram (h : IsExecuted t) : IsProgram t := by
  refine ⟨fun hblank => ?_, h.1⟩
  have hnone : (Program.ofSource (Text.trimmed t)).hasInstructions = false := by
    rw [Text.trimmed, hblank]
    rfl
  rw [Program.hasInstructions_ofSource_trimmed, h.2] at hnone
  cases hnone

/-- Whether a text is executed is to be seen in what trimming leaves of it. -/
theorem IsExecuted.of_trimmed_eq (hu : IsExecuted u) (h : Text.trimmed t = Text.trimmed u) :
    IsExecuted t := by
  constructor
  · rw [← Meta.read?_trim, ← Text.toList_trimmed, h, Text.toList_trimmed, Meta.read?_trim]
    exact hu.1
  · rw [← Program.hasInstructions_ofSource_trimmed, h, Program.hasInstructions_ofSource_trimmed]
    exact hu.2

/-! ## §2. The last one of a kind. -/

/-- `text` is the last one of its kind among the submissions, and no reset
follows it. -/
def LastOf (p : String → Prop) (before : List String) (text : String) : Prop :=
  ∃ earlier later, before = earlier ++ text :: later ∧ p text ∧
    ∀ t ∈ later, ¬ p t ∧ Meta.read? t.toList ≠ some .reset

theorem not_lastOf_nil : ¬ LastOf p [] u := by
  rintro ⟨earlier, later, hsplit, -⟩
  exact List.append_ne_nil_of_right_ne_nil earlier (List.cons_ne_nil _ _) hsplit.symm

/-- One more submission is the last one of its kind, or it forgets the last one,
or it leaves it. -/
theorem lastOf_concat :
    LastOf p (before ++ [t]) u ↔
      (p t ∧ u = t) ∨ (¬ p t ∧ Meta.read? t.toList ≠ some .reset ∧ LastOf p before u) := by
  constructor
  · rintro ⟨earlier, later, hsplit, hu, hlater⟩
    -- The new submission is the one meant, or the last of those behind it.
    rcases List.eq_nil_or_concat later with rfl | ⟨init, t', rfl⟩
    · obtain ⟨-, ht⟩ := List.append_inj' hsplit rfl
      cases ht
      exact .inl ⟨hu, rfl⟩
    · have hassoc : earlier ++ u :: init.concat t' = (earlier ++ u :: init) ++ [t'] := by
        rw [List.concat_eq_append, List.append_assoc, List.cons_append]
      rw [hassoc] at hsplit
      obtain ⟨hbefore, ht⟩ := List.append_inj' hsplit rfl
      cases ht
      obtain ⟨hp, hreset⟩ := hlater t (by rw [List.concat_eq_append]; exact List.mem_concat_self)
      refine .inr ⟨hp, hreset, earlier, init, hbefore, hu, fun s hs => hlater s ?_⟩
      rw [List.concat_eq_append]
      exact List.mem_append_left _ hs
  · rintro (⟨ht, rfl⟩ | ⟨hp, hreset, earlier, later, rfl, hu, hlater⟩)
    · exact ⟨before, [], rfl, ht, fun s hs => absurd hs List.not_mem_nil⟩
    · refine ⟨earlier, later ++ [t], ?_, hu, fun s hs => ?_⟩
      · rw [List.append_assoc, List.cons_append]
      · rcases List.mem_append.mp hs with hs | hs
        · exact hlater s hs
        · rw [List.mem_singleton.mp hs]
          exact ⟨hp, hreset⟩

theorem LastOf.prop (h : LastOf p before t) : p t := by
  obtain ⟨-, -, -, ht, -⟩ := h
  exact ht

theorem LastOf.unique (ht : LastOf p before t) (hu : LastOf p before u) : t = u := by
  induction before using List.reverseRecOn with
  | nil => exact absurd ht not_lastOf_nil
  | append_singleton before s ih =>
      rcases lastOf_concat.mp ht with ⟨hs, rfl⟩ | ⟨hs, -, ht⟩
      · rcases lastOf_concat.mp hu with ⟨-, rfl⟩ | ⟨hs', -, -⟩
        · rfl
        · exact absurd hs hs'
      · rcases lastOf_concat.mp hu with ⟨hs', -⟩ | ⟨-, -, hu⟩
        · exact absurd hs' hs
        · exact ih ht hu

/-- The last one of a wider kind is the last one of a narrower kind, if it is of
that kind at all. -/
theorem LastOf.of_imp (hpq : ∀ s, p s → q s) (h : LastOf q before t) (hp : p t) :
    LastOf p before t := by
  obtain ⟨earlier, later, hsplit, -, hlater⟩ := h
  refine ⟨earlier, later, hsplit, hp, fun s hs => ?_⟩
  exact ⟨fun hps => (hlater s hs).1 (hpq s hps), (hlater s hs).2⟩

/-- Where there is a last one of a narrower kind, there is one of the wider. -/
theorem LastOf.exists_of_imp (hpq : ∀ s, p s → q s) (h : LastOf p before u) :
    ∃ t, LastOf q before t := by
  induction before using List.reverseRecOn with
  | nil => exact absurd h not_lastOf_nil
  | append_singleton before s ih =>
      by_cases hq : q s
      · exact ⟨s, lastOf_concat.mpr (.inl ⟨hq, rfl⟩)⟩
      · rcases lastOf_concat.mp h with ⟨hs, -⟩ | ⟨-, hreset, h⟩
        · exact absurd (hpq s hs) hq
        · obtain ⟨t, ht⟩ := ih h
          exact ⟨t, lastOf_concat.mpr (.inr ⟨hq, hreset, ht⟩)⟩

/-- What a dump shows of the last submission of a kind: its trimmed text and a
line feed, and nothing if there is no such submission. -/
def Recalls (p : String → Prop) (before : List String) (dumped : ByteArray) : Prop :=
  (∀ text, LastOf p before text → dumped = (Text.trimmed text ++ "\n").toUTF8) ∧
  ((∀ text, ¬ LastOf p before text) → dumped = .empty)

/-! ## §3. Sessions, submission by submission. -/

namespace Editor

variable {e : Editor} {once : Bool} {o : Options} {command : Meta}

theorem submit_of_blank (h : Text.trim t.toList = []) : e.submit once o t = { editor := e } := by
  have hempty : (Text.trimmed t).isEmpty = true := by
    rw [Text.trimmed, h]
    rfl
  unfold submit
  dsimp only
  rw [if_pos hempty]

theorem isEmpty_trimmed (h : Text.trim t.toList ≠ []) : ¬ (Text.trimmed t).isEmpty = true := by
  rw [String.isEmpty_iff]
  exact trimmed_ne_empty h

theorem submit_of_command (h : Meta.read? t.toList = some command) :
    e.submit once o t = e.obey command := by
  have hne : Text.trim t.toList ≠ [] := by
    intro hblank
    rw [Meta.read?_of_blank hblank] at h
    cases h
  unfold submit
  dsimp only
  rw [if_neg (isEmpty_trimmed hne), Text.toList_trimmed, Meta.read?_trim, h]

theorem submit_of_program (h : IsProgram t) :
    e.submit once o t =
      { editor := { e with last := Text.trimmed t }
        shown := { errors := Meta.note (Text.trim t.toList) : Response }.andThen
          (executeIfInstructed (Text.trimmed t) o)
        ended := once } := by
  unfold submit
  dsimp only
  rw [if_neg (isEmpty_trimmed h.1), Text.toList_trimmed, Meta.read?_trim, h.2]

/-- **What one submission does to the text that is kept.** -/
theorem last_submit (e : Editor) (once : Bool) (o : Options) (t : String) :
    (IsProgram t → (e.submit once o t).editor.last = Text.trimmed t) ∧
    (Meta.read? t.toList = some .reset → (e.submit once o t).editor.last = "") ∧
    (¬ IsProgram t → Meta.read? t.toList ≠ some .reset →
      (e.submit once o t).editor.last = e.last) := by
  refine ⟨fun h => ?_, fun h => ?_, fun hprogram hreset => ?_⟩
  · rw [submit_of_program h]
  · rw [submit_of_command h]
    rfl
  · cases hread : Meta.read? t.toList with
    | none =>
        -- No program and no command: the text is blank.
        have hblank : Text.trim t.toList = [] := by
          by_contra hne
          exact hprogram ⟨hne, hread⟩
        rw [submit_of_blank hblank]
    | some command =>
        rw [submit_of_command hread]
        cases command with
        | reset => exact absurd hread hreset
        | exit => rfl
        | help => rfl
        | dump => rfl

/-- Only the command for it ends a session that may have any number of programs. -/
theorem ended_submit (e : Editor) (o : Options) (h : Meta.read? t.toList ≠ some .exit) :
    (e.submit false o t).ended = false := by
  cases hread : Meta.read? t.toList with
  | none =>
      by_cases hblank : Text.trim t.toList = []
      · rw [submit_of_blank hblank]
      · rw [submit_of_program ⟨hblank, hread⟩]
  | some command =>
      rw [submit_of_command hread]
      cases command with
      | exit => exact absurd hread h
      | reset => rfl
      | help => rfl
      | dump => rfl

/-- What a session keeps behind some submissions. -/
def after (e : Editor) (o : Options) (ts : List String) : Editor :=
  ts.foldl (fun e t => (e.submit false o t).editor) e

/-- What a session has written to the output behind some submissions. -/
def shownAfter (e : Editor) (o : Options) : List String → ByteArray
  | [] => .empty
  | t :: ts => (e.submit false o t).shown.output ++ shownAfter (e.submit false o t).editor o ts

theorem after_cons (e : Editor) (o : Options) (t : String) (ts : List String) :
    e.after o (t :: ts) = (e.submit false o t).editor.after o ts := by
  rw [after, after, List.foldl_cons]

theorem after_concat (e : Editor) (o : Options) (ts : List String) (t : String) :
    e.after o (ts ++ [t]) = ((e.after o ts).submit false o t).editor := by
  rw [after, List.foldl_append]
  rfl

/-- A session goes on behind submissions that do not end it. -/
theorem output_session_append (e : Editor) (o : Options) (ts behind : List String)
    (hexit : ∀ t ∈ ts, Meta.read? t.toList ≠ some .exit) :
    (e.session false o (ts ++ behind)).output
      = e.shownAfter o ts ++ ((e.after o ts).session false o behind).output := by
  induction ts generalizing e with
  | nil => exact ByteArray.empty_append.symm
  | cons t ts ih =>
      obtain ⟨ht, hts⟩ := List.forall_mem_cons.mp hexit
      rw [List.cons_append, session]
      dsimp only
      rw [if_neg (by rw [ended_submit e o ht]; exact Bool.false_ne_true), Response.andThen]
      dsimp only
      rw [ih _ hts, shownAfter, after_cons, ByteArray.append_assoc]

end Editor

/-! ## §4. The text that is kept. -/

/-- A line feed behind a text is never nothing. -/
theorem toUTF8_line_ne_empty (s : String) : (s ++ "\n").toUTF8 ≠ .empty := by
  intro h
  have hsize := congrArg ByteArray.size h
  simp at hsize

theorem toUTF8_line_inj {s s' : String} :
    (s ++ "\n").toUTF8 = (s' ++ "\n").toUTF8 ↔ s = s' := by
  rw [String.toUTF8_eq_toByteArray, String.toUTF8_eq_toByteArray, String.toByteArray_inj,
    String.append_left_inj]

namespace Editor

/-- **A session keeps the last program submitted since the last reset.** -/
theorem last_after (o : Options) (before : List String) :
    (∀ text, LastOf IsProgram before text → (after {} o before).last = Text.trimmed text) ∧
    ((∀ text, ¬ LastOf IsProgram before text) → (after {} o before).last = "") := by
  induction before using List.reverseRecOn with
  | nil => exact ⟨fun text h => absurd h not_lastOf_nil, fun _ => rfl⟩
  | append_singleton before t ih =>
      obtain ⟨hsubmitted, hforgotten, hkept⟩ := last_submit (after {} o before) false o t
      rw [after_concat]
      constructor
      · intro text h
        rcases lastOf_concat.mp h with ⟨ht, rfl⟩ | ⟨ht, hreset, h⟩
        · exact hsubmitted ht
        · rw [hkept ht hreset]
          exact ih.1 text h
      · intro hnone
        have ht : ¬ IsProgram t := fun ht => hnone t (lastOf_concat.mpr (.inl ⟨ht, rfl⟩))
        by_cases hreset : Meta.read? t.toList = some .reset
        · exact hforgotten hreset
        · rw [hkept ht hreset]
          refine ih.2 fun text h => hnone text ?_
          exact lastOf_concat.mpr (.inr ⟨ht, hreset, h⟩)

/-- What a dump shows. -/
def dumped (e : Editor) : ByteArray := (e.obey .dump).shown.output

theorem dumped_of_empty {e : Editor} (h : e.last = "") : e.dumped = .empty := by
  rw [dumped, obey, h]
  rfl

theorem dumped_of_ne_empty {e : Editor} (h : e.last ≠ "") :
    e.dumped = (e.last ++ "\n").toUTF8 := by
  have hne : ¬ e.last.isEmpty = true := fun hempty => h (String.isEmpty_iff.mp hempty)
  rw [dumped, obey, if_neg hne]
  rfl

/-- A dump tells which text is kept. -/
theorem dumped_eq_iff {e e' : Editor} : e.dumped = e'.dumped ↔ e.last = e'.last := by
  constructor
  · intro h
    by_cases he : e.last = "" <;> by_cases he' : e'.last = ""
    · rw [he, he']
    · rw [dumped_of_empty he, dumped_of_ne_empty he'] at h
      exact absurd h.symm (toUTF8_line_ne_empty _)
    · rw [dumped_of_ne_empty he, dumped_of_empty he'] at h
      exact absurd h (toUTF8_line_ne_empty _)
    · rw [dumped_of_ne_empty he, dumped_of_ne_empty he'] at h
      exact toUTF8_line_inj.mp h
  · intro h
    rw [dumped, dumped, obey, obey, h]

/-- **A dump shows the last program submitted.** -/
theorem recalls_dumped (o : Options) (before : List String) :
    Recalls IsProgram before (after {} o before).dumped := by
  obtain ⟨hsome, hnone⟩ := last_after o before
  constructor
  · intro text h
    have hne : (after {} o before).last ≠ "" := by
      rw [hsome text h]
      exact trimmed_ne_empty h.prop.1
    rw [dumped_of_ne_empty hne, hsome text h]
  · intro h
    exact dumped_of_empty (hnone h)

end Editor

/-! ## §5. Executed programs. -/

/-- What the last program submitted leaves is what the last program executed
would leave, if and only if they are the same. -/
theorem Recalls.executed_iff {dumped : ByteArray} (h : Recalls IsProgram before dumped) :
    Recalls IsExecuted before dumped ↔ ∀ t, LastOf IsProgram before t → IsExecuted t := by
  have himp : ∀ s, IsExecuted s → IsProgram s := fun _ hs => hs.isProgram
  constructor
  · intro hexec t ht
    have hshown : dumped = (Text.trimmed t ++ "\n").toUTF8 := h.1 t ht
    by_cases hsome : ∃ u, LastOf IsExecuted before u
    · -- The same text is shown, and it tells whether there is an instruction.
      obtain ⟨u, hu⟩ := hsome
      rw [hexec.1 u hu, toUTF8_line_inj] at hshown
      exact hu.prop.of_trimmed_eq hshown.symm
    · rw [hexec.2 fun u hu => hsome ⟨u, hu⟩] at hshown
      exact absurd hshown.symm (toUTF8_line_ne_empty _)
  · intro hall
    constructor
    · intro u hu
      obtain ⟨t, ht⟩ := hu.exists_of_imp himp
      have hsame : u = t := hu.unique (ht.of_imp himp (hall t ht))
      rw [hsame]
      exact h.1 t ht
    · intro hnone
      exact h.2 fun t ht => hnone t (ht.of_imp himp (hall t ht))

/-- A text that is no command leaves what a dump shows as it is if it is blank
or the text that is shown already, and in no other case. -/
theorem Editor.dumped_concat_eq_iff (o : Options) (before : List String) {text : String}
    (hread : Meta.read? text.toList = none) :
    (after {} o (before ++ [text])).dumped = (after {} o before).dumped ↔
      Text.trim text.toList = [] ∨
        ∃ t, LastOf IsProgram before t ∧ Text.trimmed t = Text.trimmed text := by
  obtain ⟨hsome, hnone⟩ := last_after o before
  rw [dumped_eq_iff, after_concat]
  by_cases hblank : Text.trim text.toList = []
  · rw [submit_of_blank hblank]
    exact ⟨fun _ => .inl hblank, fun _ => rfl⟩
  · rw [submit_of_program ⟨hblank, hread⟩]
    show Text.trimmed text = (after {} o before).last ↔ _
    constructor
    · intro hlast
      by_cases hprogram : ∃ t, LastOf IsProgram before t
      · obtain ⟨t, ht⟩ := hprogram
        exact .inr ⟨t, ht, by rw [hlast, hsome t ht]⟩
      · rw [hnone fun t ht => hprogram ⟨t, ht⟩] at hlast
        exact absurd hlast (trimmed_ne_empty hblank)
    · rintro (h | ⟨t, ht, hsame⟩)
      · exact absurd h hblank
      · rw [hsome t ht, hsame]

end Prairie.Console

namespace Prairie

open Console Console.Editor

/-- **A DUMP SHOWS THE LAST PROGRAM SUBMITTED.**  In a session that has not been
ended, whatever was submitted before and whatever follows: a dump writes to the
output, behind what was written before it and in front of what is written behind
it, the last program submitted since the last reset, and nothing if there is
none.  That is the last program executed if and only if there is an instruction
in the last program submitted.  A text that is no command and is not executed
leaves what a dump shows as it is if it is blank or the text that is shown
already, and in no other case. -/
theorem dump_shows_last_submitted (o : Options) (before behind : List String) (dump : String)
    (hexit : ∀ t ∈ before, Meta.read? t.toList ≠ some .exit)
    (hdump : Meta.read? dump.toList = some .dump) :
    (session {} false o (before ++ dump :: behind)).output
      = shownAfter {} o before ++ (after {} o before).dumped
        ++ (session (after {} o before) false o behind).output ∧
    Recalls IsProgram before (after {} o before).dumped ∧
    (Recalls IsExecuted before (after {} o before).dumped ↔
      ∀ t, LastOf IsProgram before t → (Program.ofSource t).hasInstructions = true) ∧
    ∀ idle, Meta.read? idle.toList = none → (Program.ofSource idle).hasInstructions = false →
      ((after {} o (before ++ [idle])).dumped = (after {} o before).dumped ↔
        Text.trim idle.toList = [] ∨
          ∃ t, LastOf IsProgram before t ∧ Text.trimmed t = Text.trimmed idle) := by
  have hrecalls := recalls_dumped o before
  refine ⟨?_, hrecalls, ?_, fun idle hread _ => dumped_concat_eq_iff o before hread⟩
  · rw [output_session_append {} o before _ hexit, session, submit_of_command hdump,
      ByteArray.append_assoc]
    rfl
  · rw [hrecalls.executed_iff]
    constructor
    · intro h t ht
      exact (h t ht).2
    · intro h t ht
      exact ⟨ht.prop.2, h t ht⟩

/-- A program, and a text of comments alone behind it. -/
def remarkedSession : List String := ["Buffalo Buffalo .", "note only"]

theorem dump_shows_last_submitted_remark :
    (session {} false {} (remarkedSession ++ [":dump"])).output
      = shownAfter {} {} remarkedSession ++ "note only\n".toUTF8 ++ "\n".toUTF8 ∧
    ¬ Recalls IsExecuted remarkedSession (after {} {} remarkedSession).dumped := by
  obtain ⟨hsession, hrecalls, hexecuted, -⟩ :=
    dump_shows_last_submitted {} remarkedSession [] ":dump" (by decide +kernel) (by decide +kernel)
  have hlast : LastOf IsProgram remarkedSession "note only" := by
    refine ⟨["Buffalo Buffalo ."], [], rfl, ?_, fun t ht => absurd ht List.not_mem_nil⟩
    unfold IsProgram
    decide +kernel
  constructor
  · rw [hsession, hrecalls.1 _ hlast]
    rfl
  · rw [hexecuted]
    intro h
    exact absurd (h _ hlast) (by decide +kernel)

/-- **A dump does not show the last program executed**: here it should show the
program in front of the comments. -/
theorem dump_forgets_last_executed :
    ¬ ∀ (o : Options) (before behind : List String) (dump : String),
      (∀ t ∈ before, Meta.read? t.toList ≠ some .exit) →
      Meta.read? dump.toList = some .dump →
      ∃ dumped : ByteArray,
        (session {} false o (before ++ dump :: behind)).output
          = shownAfter {} o before ++ dumped
            ++ (session (after {} o before) false o behind).output ∧
        Recalls IsExecuted before dumped := by
  intro h
  obtain ⟨dumped, hsession, hrecalls⟩ :=
    h {} remarkedSession [] ":dump" (by decide +kernel) (by decide +kernel)
  have hlast : LastOf IsExecuted remarkedSession "Buffalo Buffalo ." := by
    refine ⟨[], ["note only"], rfl, ?_, ?_⟩ <;> unfold IsExecuted <;> decide +kernel
  rw [hrecalls.1 _ hlast] at hsession
  exact absurd hsession (by decide +kernel)

end Prairie
