/-
  Prairie.Proofs.Console.Assembly
  ───────────────────────────────
  **SOURCES PUT TOGETHER KEEP THEIR INSTRUCTIONS.**

  A source that is run is often put together: parts on the command line are
  joined by spaces, and a script is what is left of its lines when the commands
  are taken out.  Spaces and line feeds stand in no literal, so they keep what
  is around them apart (`Scanner.instructions_append_mark`), and a command has
  nothing to lose:

      lines kept      instructions of each, one after the other
      commands        no literal, so no instruction

  Whatever is taken out between two line feeds, no word is made of the halves
  that come to stand together, and none is torn.
-/
import Prairie.CommandLine.Respond
import Prairie.Proofs.Console.Lines
import Prairie.Proofs.Source.Joining

namespace Prairie

variable {cs line : List Char} {ls : List (List Char)}

/-! ## §1. Commands hold no literal. -/

theorem free_iff_forall_mem_all : Free cs ↔ ∀ l ∈ Literal.all, ¬ l.letters <:+: cs :=
  ⟨fun h l _ => h l, fun h l => h l l.mem_all⟩

/-- Blanks around a text make no literal. -/
theorem Free.of_trim (h : Free (Text.trim cs)) : Free cs := by
  obtain ⟨back, hsplit, hback⟩ := Text.trim_split cs
  have hfront : (cs.takeWhile Text.isBlank).all Text.isBlank = true := List.all_takeWhile
  rw [hsplit]
  exact (h.blanks_append hfront).append_blanks hback

namespace Console.Meta

variable {word : String} {command : Meta}

/-- The words that name a command. -/
def words : List String := ["exit", "quit", "help", "reset", "dump"]

theorem mem_words_of_named? (h : named? word = some command) : word ∈ words := by
  unfold named? at h
  split at h
  · decide
  · decide
  · decide
  · decide
  · decide
  · cases h

/-- What stands behind the colon is what stands there when the line is trimmed. -/
theorem afterColon?_eq_some_iff {rest : List Char} :
    afterColon? line = some rest ↔ Text.trim line = ':' :: rest := by
  unfold afterColon?
  split
  next rest' hline =>
      rw [hline, Option.some_inj, List.cons_inj_right]
  next hnone => exact iff_of_false (by simp) (hnone rest)

theorem not_mem_letters_colon (l : Literal) : ':' ∉ l.letters := by
  have key : ∀ l ∈ Literal.all, ':' ∉ l.letters := by decide
  exact key l l.mem_all

/-- **No line that is a command holds a literal.** -/
theorem free_of_read? (h : read? line = some command) : Free line := by
  obtain ⟨rest, hcolon, hnamed⟩ := Option.bind_eq_some_iff.mp h
  have hword : Free (Text.trim rest) := by
    have key : ∀ word ∈ words, ∀ l ∈ Literal.all, ¬ l.letters <:+: word.toList := by
      decide +kernel
    have hfree := free_iff_forall_mem_all.mpr (key _ (mem_words_of_named? hnamed))
    rwa [String.toList_ofList] at hfree
  -- The line is blanks, a colon, blanks, the word and blanks.
  refine Free.of_trim ?_
  rw [afterColon?_eq_some_iff.mp hcolon]
  exact free_nil.join not_mem_letters_colon hword.of_trim

end Console.Meta

/-! ## §2. The instructions of lines. -/

/-- Every line with another one behind it ends in a line feed. -/
def Text.Parted (ls : List (List Char)) : Prop :=
  ls.Pairwise fun line _ => ∃ body, line = body ++ ['\n']

theorem Text.parted_lines (cs : List Char) : Text.Parted (Text.lines cs) := by
  obtain ⟨bodies, tail, hlines, -, -⟩ := Text.lines_eq cs
  have hbody : ∀ line ∈ bodies.map (· ++ ['\n']), ∃ body, line = body ++ ['\n'] := by
    intro line hline
    obtain ⟨body, -, rfl⟩ := List.mem_map.mp hline
    exact ⟨body, rfl⟩
  unfold Text.Parted
  rw [hlines, List.pairwise_append]
  refine ⟨?_, ?_, fun line hline _ _ => hbody line hline⟩
  · exact List.Pairwise.imp_of_mem (fun hline _ _ => hbody _ hline)
      (List.pairwise_of_forall fun _ _ => trivial)
  split
  · exact List.Pairwise.nil
  · exact List.pairwise_singleton _ _

namespace Scanner

theorem not_mem_letters_lineFeed : ∀ l : Literal, '\n' ∉ l.letters :=
  Literal.not_mem_of_isBlank (by decide)

/-- **Lines spell the instructions of each line**, one after the other. -/
theorem instructions_flatten (h : Text.Parted ls) :
    instructions ls.flatten = ls.flatMap instructions := by
  induction ls with
  | nil => exact instructions_free free_nil
  | cons line ls ih =>
      obtain ⟨hline, hrest⟩ := List.pairwise_cons.mp h
      rw [List.flatten_cons, List.flatMap_cons, ← ih hrest]
      cases ls with
      | nil => rw [List.flatten_nil, List.append_nil, instructions_free free_nil, List.append_nil]
      | cons next ls =>
          obtain ⟨body, rfl⟩ := hline next List.mem_cons_self
          rw [List.append_assoc, List.singleton_append,
            instructions_append_mark not_mem_letters_lineFeed,
            instructions_concat_mark not_mem_letters_lineFeed]

end Scanner

/-- Leaving out lines without an instruction changes no instruction. -/
theorem flatMap_instructions_filter (keep : List Char → Bool)
    (h : ∀ line ∈ ls, keep line = false → Scanner.instructions line = []) :
    (ls.filter keep).flatMap Scanner.instructions = ls.flatMap Scanner.instructions := by
  induction ls with
  | nil => rfl
  | cons line ls ih =>
      obtain ⟨hline, hrest⟩ := List.forall_mem_cons.mp h
      cases hkeep : keep line with
      | true => rw [List.filter_cons_of_pos hkeep, List.flatMap_cons, List.flatMap_cons, ih hrest]
      | false =>
          rw [List.filter_cons_of_neg (by rw [hkeep]; exact Bool.false_ne_true), List.flatMap_cons,
            hline hkeep, List.nil_append, ih hrest]

namespace Console

/-- **What lines make spells the instructions of the lines since the last
reset**, commands or not. -/
theorem instructions_kept (h : Text.Parted ls) :
    (Program.ofSource (kept ls)).instructions = (sinceReset ls).flatMap Scanner.instructions := by
  have hsince : Text.Parted (sinceReset ls) :=
    List.Pairwise.sublist (List.rtakeWhile_suffix _ _).sublist h
  have hkept : Text.Parted ((sinceReset ls).filter fun line => Meta.read? line = none) :=
    List.Pairwise.sublist List.filter_sublist hsince
  rw [Program.instructions_ofSource, kept, String.toList_ofList, Scanner.instructions_flatten hkept]
  refine flatMap_instructions_filter _ fun line _ hline => ?_
  obtain ⟨command, hcommand⟩ := Option.ne_none_iff_exists'.mp (of_decide_eq_false hline)
  exact Scanner.instructions_free (Meta.free_of_read? hcommand)

theorem heard_of_no_exit (h : ∀ line ∈ ls, Meta.read? line ≠ some .exit) : heard ls = ls := by
  unfold heard
  rw [List.takeWhile_eq_self_iff]
  exact fun line hline => decide_eq_true (h line hline)

theorem sinceReset_of_no_reset (h : ∀ line ∈ ls, Meta.read? line ≠ some .reset) :
    sinceReset ls = ls := by
  unfold sinceReset
  rw [List.rtakeWhile_eq_self_iff]
  exact fun line hline => decide_eq_true (h line hline)

end Console

/-! ## §3. Sources put together. -/

open Console CommandLine in
/-- **SOURCES PUT TOGETHER KEEP THEIR INSTRUCTIONS.**  Two texts with a character
between them that stands in no literal, such as a space or a line feed, spell
the instructions of the one and then those of the other.

So a command given any number of parts goes on with a text that spells the
instructions of each part, one after the other; and a script in which no line is
an exit or a reset keeps a source with the instructions of the whole input,
though the commands were taken out of it, for no line that is a command holds a
literal. -/
theorem joining_keeps_instructions :
    (∀ (a b : String) (mark : Char), (∀ l : Literal, mark ∉ l.letters) →
      (Program.ofSource (a ++ String.singleton mark ++ b)).instructions
        = (Program.ofSource a).instructions ++ (Program.ofSource b).instructions) ∧
    (∀ l : Literal, ' ' ∉ l.letters ∧ '\n' ∉ l.letters) ∧
    (∀ (part : String) (parts : List String), ∃ joined,
      (∀ name topic files next,
        withSource name topic { parts := part :: parts } files next = next joined) ∧
      (Program.ofSource joined).instructions
        = (part :: parts).flatMap fun part => (Program.ofSource part).instructions) ∧
    (∀ input : String, (∀ line ∈ Text.lines input.toList,
        Meta.read? line ≠ some .exit ∧ Meta.read? line ≠ some .reset) →
      (Program.ofSource (Script.read input).source).instructions
        = (Program.ofSource input).instructions) ∧
    (∀ line command, Meta.read? line = some command → Free line) := by
  have hspace : ∀ l : Literal, ' ' ∉ l.letters := Literal.not_mem_of_isBlank (by decide)
  refine ⟨fun a b mark hmark => Program.instructions_append_mark hmark a b,
    fun l => ⟨hspace l, Scanner.not_mem_letters_lineFeed l⟩, fun part parts => ?_,
    fun input hplain => ?_, fun line command h => Meta.free_of_read? h⟩
  · refine ⟨" ".intercalate (part :: parts), fun name topic files next => rfl, ?_⟩
    exact Program.instructions_intercalate hspace (part :: parts)
  · have hexit : heard (Text.lines input.toList) = Text.lines input.toList :=
      heard_of_no_exit fun line hline => (hplain line hline).1
    have hreset : sinceReset (Text.lines input.toList) = Text.lines input.toList :=
      sinceReset_of_no_reset fun line hline => (hplain line hline).2
    rw [Script.read_eq_meaning]
    show (Program.ofSource (kept (heard (Text.lines input.toList)))).instructions = _
    rw [hexit, instructions_kept (Text.parted_lines _), hreset,
      ← Scanner.instructions_flatten (Text.parted_lines _), Text.flatten_lines,
      Program.instructions_ofSource]

/-- Half a word before a command and the other half behind it, and a command
that lacks its line feed. -/
def halfWords : String := "Buffalo buff\n:help\r\nalo(.\n\u3000: dump"

open Console CommandLine in
theorem joining_keeps_instructions_halfWords :
    (∀ l : Literal, '\n' ∉ l.letters) ∧
    (Program.ofSource ("( buff" ++ String.singleton '\n' ++ "alo.")).instructions
      = [.literal .loopBegin, .literal .output] ∧
    (∀ line ∈ Text.lines halfWords.toList,
      Meta.read? line ≠ some .exit ∧ Meta.read? line ≠ some .reset) ∧
    (Script.read halfWords).source = "Buffalo buff\nalo(.\n" ∧
    (Program.ofSource (Script.read halfWords).source).instructions
      = (Program.ofSource halfWords).instructions ∧
    Meta.read? "\u3000: dump".toList = some .dump ∧ Free "\u3000: dump".toList := by
  obtain ⟨hmark, hblank, -, hscript, hfree⟩ := joining_keeps_instructions
  have hplain : ∀ line ∈ Text.lines halfWords.toList,
      Meta.read? line ≠ some .exit ∧ Meta.read? line ≠ some .reset := by decide +kernel
  have hdump : Meta.read? "\u3000: dump".toList = some .dump := by decide +kernel
  refine ⟨fun l => (hblank l).2, ?_, hplain, by decide +kernel, hscript halfWords hplain, hdump,
    hfree _ _ hdump⟩
  rw [hmark "( buff" "alo." '\n' fun l => (hblank l).2]
  decide +kernel

end Prairie
