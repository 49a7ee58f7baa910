/-
  Prairie.Proofs.Console.ColonLines
  ─────────────────────────────────
  **LINES WITH A COLON.**

  Two questions are asked about a line that begins with a colon, whether it is a
  command and whether it looks like one, and each has a grammar:

      command      blanks  :  blanks  exit | quit | help | reset | dump  blanks
      misspelled   blanks  :  word  blanks       word of  a-z A-Z 0-9 - _
                                                 and none of the five

  No line is both.  Of the literals only `Buffalo` and `buffalo` are made of the
  letters of such words, so a command spells no token, a misspelled line spells
  one only if one of these two stands in its word, and a line that spells none
  hides no instruction of the text that it stands in.
-/
import Prairie.Proofs.Console.Assembly

namespace Prairie

variable {line word : List Char} {c : Char}

namespace Console.Meta

/-! ## §1. The grammar of commands. -/

/-- The line is a colon and a word, with blanks in front of each of them and
behind the word. -/
def Spells (line word : List Char) : Prop :=
  ∃ front gap back : List Char, line = front ++ ':' :: (gap ++ word ++ back) ∧
    front.all Text.isBlank = true ∧ gap.all Text.isBlank = true ∧ back.all Text.isBlank = true

theorem named?_eq_none_iff {word : String} : named? word = none ↔ word ∉ words := by
  constructor
  · intro hnone hword
    have key : ∀ word ∈ words, named? word ≠ none := by decide +kernel
    exact key word hword hnone
  · intro hword
    rw [Option.eq_none_iff_forall_ne_some]
    intro command hsome
    exact hword (mem_words_of_named? hsome)

theorem trim_word {word : String} (h : word ∈ words) : Text.trim word.toList = word.toList := by
  have key : ∀ word ∈ words, Text.trim word.toList = word.toList := by decide +kernel
  exact key word h

/-- Behind the colon of a line only a trimmed word counts. -/
theorem read?_of_colon {front : List Char} (hfront : front.all Text.isBlank = true)
    (rest : List Char) :
    read? (front ++ ':' :: rest) = named? (String.ofList (Text.trim rest)) := by
  have hcolon : Text.isBlank ':' = false := by decide
  have hafter : afterColon? (front ++ ':' :: rest) = some (Text.trimEnd rest) := by
    rw [afterColon?_eq_some_iff, Text.trim_blanks_append hfront, Text.trim_cons hcolon]
  rw [read?, hafter, Option.bind_some, Text.trim_trimEnd]

/-- A line that spells one of the words is the command that the word names. -/
theorem read?_of_spells {word : String} (hword : word ∈ words) (h : Spells line word.toList) :
    read? line = named? word := by
  obtain ⟨front, gap, back, rfl, hfront, hgap, hback⟩ := h
  rw [read?_of_colon hfront, Text.trim_append_blanks hback, Text.trim_blanks_append hgap,
    trim_word hword, String.ofList_toList]

/-- A command spells one of the words. -/
theorem spells_of_read? {command : Meta} (h : read? line = some command) :
    ∃ word ∈ words, Spells line word.toList := by
  obtain ⟨rest, hcolon, hnamed⟩ := Option.bind_eq_some_iff.mp h
  refine ⟨_, mem_words_of_named? hnamed, ?_⟩
  rw [String.toList_ofList]
  -- Blanks are cut off twice: around the line, and around what is behind the colon.
  obtain ⟨back, hline, hback⟩ := Text.trim_split line
  obtain ⟨back', hrest, hback'⟩ := Text.trim_split rest
  refine ⟨line.takeWhile Text.isBlank, rest.takeWhile Text.isBlank, back' ++ back, ?_,
    List.all_takeWhile, List.all_takeWhile, by rw [List.all_append, hback', hback]; rfl⟩
  rw [afterColon?_eq_some_iff.mp hcolon] at hline
  rw [← List.append_assoc _ back', ← hrest, ← List.cons_append, ← List.append_assoc]
  exact hline

/-- **A line is a command just when it spells one of the words.** -/
theorem exists_read?_iff :
    (∃ command, read? line = some command) ↔ ∃ word ∈ words, Spells line word.toList := by
  constructor
  · rintro ⟨command, h⟩
    exact spells_of_read? h
  · rintro ⟨word, hword, h⟩
    rw [read?_of_spells hword h, ← Option.ne_none_iff_exists', ne_eq, named?_eq_none_iff,
      not_not]
    exact hword

/-! ## §2. The grammar of what looks like one. -/

/-- An ASCII letter or digit, a hyphen or an underscore. -/
def WordLetter (c : Char) : Prop :=
  ('A' ≤ c ∧ c ≤ 'Z') ∨ ('a' ≤ c ∧ c ≤ 'z') ∨ ('0' ≤ c ∧ c ≤ '9') ∨ c = '-' ∨ c = '_'

theorem isWordChar_iff : isWordChar c = true ↔ WordLetter c := by
  have hupper : c.isUpper = true ↔ 'A' ≤ c ∧ c ≤ 'Z' := decide_eq_true_iff
  have hlower : c.isLower = true ↔ 'a' ≤ c ∧ c ≤ 'z' :=
    Bool.and_eq_true_iff.trans (and_congr decide_eq_true_iff decide_eq_true_iff)
  have hdigit : c.isDigit = true ↔ '0' ≤ c ∧ c ≤ '9' :=
    Bool.and_eq_true_iff.trans (and_congr decide_eq_true_iff decide_eq_true_iff)
  have hclass : isWordChar c = (c.isUpper || c.isLower || c.isDigit || c = '-' || c = '_') := rfl
  rw [hclass]
  simp only [Bool.or_eq_true, hupper, hlower, hdigit, decide_eq_true_eq, or_assoc]
  exact Iff.rfl

/-- No blank is a letter of a word. -/
theorem WordLetter.not_isBlank (h : WordLetter c) : Text.isBlank c = false := by
  have hbounds : '-' ≤ c ∧ c ≤ 'z' := by
    rcases h with ⟨hlow, hhigh⟩ | ⟨hlow, hhigh⟩ | ⟨hlow, hhigh⟩ | rfl | rfl
    · exact ⟨Char.le_trans (by decide) hlow, Char.le_trans hhigh (by decide)⟩
    · exact ⟨Char.le_trans (by decide) hlow, hhigh⟩
    · exact ⟨Char.le_trans (by decide) hlow, Char.le_trans hhigh (by decide)⟩
    · exact ⟨Char.le_refl _, by decide⟩
    · exact ⟨by decide, by decide⟩
  have hlow : '-'.toNat ≤ c.toNat := UInt32.le_iff_toNat_le.mp (Char.le_def.mp hbounds.1)
  have hhigh : c.toNat ≤ 'z'.toNat := UInt32.le_iff_toNat_le.mp (Char.le_def.mp hbounds.2)
  -- Every range of blanks lies in front of the hyphen or behind the z.
  have key : ∀ r ∈ Text.blankRanges, r.2 < '-'.toNat ∨ 'z'.toNat < r.1 := by decide
  rw [Text.isBlank, Text.Ranges.holds, List.any_eq_false]
  rintro ⟨first, last⟩ hrange
  have hr := key _ hrange
  simp only [Bool.and_eq_true, decide_eq_true_eq]
  omega

/-- On a line that is a colon and a word, the word is what may name a command. -/
theorem read?_of_trim (htrim : Text.trim line = ':' :: word) (hword : ∀ c ∈ word, WordLetter c) :
    read? line = named? (String.ofList word) := by
  rw [read?, afterColon?_eq_some_iff.mpr htrim, Option.bind_some,
    Text.trim_of_no_blank fun c hc => (hword c hc).not_isBlank]

/-- **A line is misspelled just when it is a colon and a word that names no
command**, blanks at its ends apart. -/
theorem misspelled?_eq_some_iff :
    misspelled? line = some word ↔
      Text.trim line = ':' :: word ∧ word ≠ [] ∧ (∀ c ∈ word, WordLetter c) ∧
        ∀ known ∈ words, word ≠ known.toList := by
  have hletters : word.all isWordChar = true ↔ ∀ c ∈ word, WordLetter c := by
    simp only [List.all_eq_true, isWordChar_iff]
  have hunknown : String.ofList word ∉ words ↔ ∀ known ∈ words, word ≠ known.toList := by
    constructor
    · rintro h known hknown rfl
      rw [String.ofList_toList] at h
      exact h hknown
    · intro h hmem
      exact h _ hmem String.toList_ofList.symm
  rw [misspelled?, Option.filter_eq_some_iff, afterColon?_eq_some_iff]
  refine and_congr_right fun htrim => ?_
  rw [Bool.and_eq_true, Bool.and_eq_true, and_assoc, hletters, ← hunknown]
  refine and_congr (by simp) (and_congr_right fun hword => ?_)
  rw [read?_of_trim htrim hword, Option.isNone_iff_eq_none, named?_eq_none_iff]

/-- **No line is both a command and misspelled.** -/
theorem read?_of_misspelled? (h : misspelled? line = some word) : read? line = none := by
  rw [misspelled?, Option.filter_eq_some_iff, Bool.and_eq_true] at h
  exact Option.isNone_iff_eq_none.mp h.2.2

end Console.Meta

/-! ## §3. What lines add to a text. -/

/-- One of the two words of the language stands in the text. -/
def HoldsWord (cs : List Char) : Prop := "Buffalo".toList <:+: cs ∨ "buffalo".toList <:+: cs

instance : DecidablePred HoldsWord := fun _ => inferInstanceAs (Decidable (_ ∨ _))

/-- Trimming takes no literal away and makes none. -/
theorem free_trim_iff : Free (Text.trim line) ↔ Free line :=
  ⟨Free.of_trim, fun hf => hf.of_infix (Text.trim_infix line)⟩

theorem free_colon_cons_iff : Free (':' :: word) ↔ Free word :=
  ⟨fun hf => hf.of_infix (List.suffix_cons _ _).isInfix,
    fun hf => free_nil.join Console.Meta.not_mem_letters_colon hf⟩

/-- Of the literals only the two words are made of letters of words. -/
theorem free_iff_of_wordLetters (hword : ∀ c ∈ word, Console.Meta.WordLetter c) :
    Free word ↔ ¬ HoldsWord word := by
  constructor
  · rintro hf (hupper | hlower)
    · exact hf (.word .upper) hupper
    · exact hf (.word .lower) hlower
  · intro hnone l hl
    have key : ∀ l ∈ Literal.all, l.letters.all Console.Meta.isWordChar = true →
        l = .word .upper ∨ l = .word .lower := by decide
    have hletters : l.letters.all Console.Meta.isWordChar = true := by
      rw [List.all_eq_true]
      intro c hc
      exact Console.Meta.isWordChar_iff.mpr (hword c (hl.subset hc))
    rcases key l l.mem_all hletters with rfl | rfl
    · exact hnone (.inl hl)
    · exact hnone (.inr hl)

namespace Console.Meta

/-- **A misspelled line holds no literal but the words that its own word holds.** -/
theorem free_iff_of_misspelled? (h : misspelled? line = some word) :
    Free line ↔ ¬ HoldsWord word := by
  obtain ⟨htrim, -, hletters, -⟩ := misspelled?_eq_some_iff.mp h
  rw [← free_trim_iff, htrim, free_colon_cons_iff, free_iff_of_wordLetters hletters]

end Console.Meta

/-- **A line without a literal can be taken out of a text**: the instructions stay
the same. -/
theorem instructions_flatten_of_free {before after : List (List Char)}
    (hparted : Text.Parted (before ++ line :: after)) (hf : Free line) :
    Scanner.instructions (before ++ after).flatten
      = Scanner.instructions (before ++ line :: after).flatten := by
  have hrest : Text.Parted (before ++ after) :=
    List.Pairwise.sublist ((List.sublist_cons_self line after).append_left before) hparted
  rw [Scanner.instructions_flatten hrest, Scanner.instructions_flatten hparted,
    List.flatMap_append, List.flatMap_append, List.flatMap_cons, Scanner.instructions_free hf,
    List.nil_append]

/-! ## §4. Lines told apart. -/

open Console in
/-- **LINES WITH A COLON ARE TOLD APART.**  A line is a command if and only if it
is a colon and one of the five words, letter by letter, with any number of blanks
in front of each and behind.  A line is reported as misspelled, and its word
with it, if and only if nothing but the colon and that word is left when it is
trimmed, and the word is made of ASCII letters, digits, hyphens and underscores
and is none of the five.  No line is both.

A line that spells a token when it is read by itself is therefore neither, or it
is misspelled and `Buffalo` or `buffalo` stands in its word.  A command, and a
misspelled line without these two, can be taken out of the text that it is a line
of: the instructions of the text stay the same, for the line has none to hide. -/
theorem colon_lines_told_apart :
    (∀ line, (∃ command, Meta.read? line = some command) ↔
      ∃ word ∈ Meta.words, Meta.Spells line word.toList) ∧
    (∀ line word, Meta.misspelled? line = some word ↔
      Text.trim line = ':' :: word ∧ word ≠ [] ∧ (∀ c ∈ word, Meta.WordLetter c) ∧
        ∀ known ∈ Meta.words, word ≠ known.toList) ∧
    (∀ line, Meta.read? line = none ∨ Meta.misspelled? line = none) ∧
    (∀ line, (Program.ofSource (String.ofList line)).tokens ≠ [] →
      (Meta.read? line = none ∧ Meta.misspelled? line = none) ∨
      ∃ word, Meta.misspelled? line = some word ∧ HoldsWord word) ∧
    (∀ (input : String) before line after, Text.lines input.toList = before ++ line :: after →
      ((∃ command, Meta.read? line = some command) ∨
        ∃ word, Meta.misspelled? line = some word ∧ ¬ HoldsWord word) →
      (Program.ofSource (String.ofList (before ++ after).flatten)).instructions
        = (Program.ofSource input).instructions) := by
  refine ⟨fun line => Meta.exists_read?_iff, fun line word => Meta.misspelled?_eq_some_iff,
    fun line => ?_, fun line htokens => ?_, fun input before line after hlines hsilent => ?_⟩
  · cases h : Meta.misspelled? line with
    | none => exact .inr rfl
    | some word => exact .inl (Meta.read?_of_misspelled? h)
  · rw [ne_eq, Program.tokens_ofSource_eq_nil_iff, String.toList_ofList] at htokens
    have hread : Meta.read? line = none := by
      rw [Option.eq_none_iff_forall_ne_some]
      intro command hcommand
      exact htokens (Meta.free_of_read? hcommand)
    cases h : Meta.misspelled? line with
    | none => exact .inl ⟨hread, rfl⟩
    | some word =>
        rw [Meta.free_iff_of_misspelled? h, not_not] at htokens
        exact .inr ⟨word, rfl, htokens⟩
  · have hfree : Free line := by
      rcases hsilent with ⟨command, hcommand⟩ | ⟨word, hword, hnone⟩
      · exact Meta.free_of_read? hcommand
      · exact (Meta.free_iff_of_misspelled? hword).mpr hnone
    have hparted := Text.parted_lines input.toList
    rw [hlines] at hparted
    rw [Program.instructions_ofSource, Program.instructions_ofSource, String.toList_ofList,
      instructions_flatten_of_free hparted hfree, ← hlines, Text.flatten_lines]

/-- What is almost a command between two halves of a word, a command with wide
blanks, and a line that looks like a command and spells a word. -/
def lookalikes : String := "Buffalo buff\n:Exit\nalo (\n\u3000: dump\n:buffalo-1\n"

open Console in
theorem colon_lines_told_apart_lookalikes :
    (∃ command, Meta.read? "\u3000: dump\n".toList = some command) ∧
    Meta.misspelled? "\u3000: dump\n".toList = none ∧
    (Program.ofSource ":buffalo-1\n").tokens ≠ [] ∧ HoldsWord "buffalo-1".toList ∧
    (Text.lines lookalikes.toList = ["Buffalo buff\n".toList] ++ ":Exit\n".toList ::
      ["alo (\n".toList, "\u3000: dump\n".toList, ":buffalo-1\n".toList]) ∧
    Meta.misspelled? ":Exit\n".toList = some "Exit".toList ∧ ¬ HoldsWord "Exit".toList ∧
    (Program.ofSource lookalikes).instructions
      = (Program.ofSource "Buffalo buff\nalo (\n\u3000: dump\n:buffalo-1\n").instructions := by
  obtain ⟨hread, -, hnotboth, htokens, htaken⟩ := colon_lines_told_apart
  have hspells : Meta.Spells "\u3000: dump\n".toList "dump".toList :=
    ⟨"\u3000".toList, " ".toList, "\n".toList, by decide, by decide, by decide, by decide⟩
  have hdump := (hread "\u3000: dump\n".toList).mpr ⟨"dump", by decide, hspells⟩
  have hspelled : (Program.ofSource ":buffalo-1\n").tokens ≠ [] := by decide +kernel
  have hlooks : Meta.misspelled? ":buffalo-1\n".toList = some "buffalo-1".toList := by
    decide +kernel
  have hlines : Text.lines lookalikes.toList = ["Buffalo buff\n".toList] ++ ":Exit\n".toList ::
      ["alo (\n".toList, "\u3000: dump\n".toList, ":buffalo-1\n".toList] := by decide +kernel
  have hcase : Meta.misspelled? ":Exit\n".toList = some "Exit".toList := by decide +kernel
  have hnoword : ¬ HoldsWord "Exit".toList := by decide
  refine ⟨hdump, ?_, hspelled, ?_, hlines, hcase, hnoword, ?_⟩
  · obtain ⟨command, hcommand⟩ := hdump
    rcases hnotboth "\u3000: dump\n".toList with hnone | hnone
    · rw [hnone] at hcommand
      cases hcommand
    · exact hnone
  · rcases htokens ":buffalo-1\n".toList hspelled with ⟨-, hnone⟩ | ⟨word, hword, hholds⟩
    · rw [hnone] at hlooks
      cases hlooks
    · rw [hlooks, Option.some_inj] at hword
      rwa [hword]
  · exact (htaken lookalikes _ _ _ hlines (.inr ⟨_, hcase, hnoword⟩)).symm

end Prairie
