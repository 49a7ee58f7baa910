/-
  Prairie.Proofs.Source.FirstBreak
  ────────────────────────────────
  **THE NESTING OF A PROGRAM IS THE NESTING OF ITS SOURCE.**

  Whether brackets nest is a question about the characters of a source, and
  it is answered for the tokens of its program.  Nothing is lost on the way:
  a bracket is a literal of one letter, so it stands in no comment, in no
  blanks and in no text that is left over, and every bracket of the source is
  a token:

      count of c in the source     =  count of its literal in the program
      bracket at character j       ↔  bracket at token i, with as many
                                      brackets of either kind before

  So the first token that breaks the nesting is the first character that
  does (`FirstViolation.firstBreak`).
-/
import Prairie.Proofs.Machine.Brackets
import Prairie.Proofs.Source.Outskirts
import Prairie.Proofs.Source.Tiling

namespace Prairie

open Text (byteWidth)

/-! ## §1. Nesting in a text. -/

namespace Text

/-- The number of opening brackets minus the number of closing ones among the
characters before `i`. -/
def depthAt (cs : List Char) (i : Nat) : Int := (cs.take i).count '(' - (cs.take i).count ')'

/-- The character `i` is a bracket that breaks the nesting: it closes what was
never opened, or it opens a loop inside as many others as `limit` allows. -/
inductive BreaksNesting (cs : List Char) (limit : Option Nat) (i : Nat) : Char → Prop where
  | closing (closes : cs[i]? = some ')') (none_open : depthAt cs i = 0) :
      BreaksNesting cs limit i ')'
  | opening {l : Nat} (opens : cs[i]? = some '(') (has_limit : limit = some l)
      (too_deep : (l : Int) ≤ depthAt cs i) : BreaksNesting cs limit i '('

/-- The character `i` is the first one that breaks the nesting. -/
structure FirstBreak (cs : List Char) (limit : Option Nat) (i : Nat) (c : Char) : Prop where
  breaks : BreaksNesting cs limit i c
  first : ∀ j < i, ∀ d, ¬ BreaksNesting cs limit j d

end Text

/-- The token that a fault of the nesting arises at, and the bracket that it
is. -/
def Fault.bracket? : Fault → Option (Nat × Char)
  | unmatchedLoopEnd index => some (index, ')')
  | loopDepthExceeded index _ => some (index, '(')
  | _ => none

/-! ## §2. Literals of one letter. -/

section

variable {offset j : Nat} {cs gap before : List Char} {c : Char} {l m : Literal} {t : Token}
  {x : Lexeme} {xs ys zs : List Lexeme}

/-- The letter of such a literal stands in no other one. -/
theorem Literal.eq_of_mem_letters (hl : l.letters = [c]) (h : c ∈ m.letters) : m = l := by
  have key : ∀ l ∈ all, ∀ m ∈ all, l.letters.length = 1 →
      l.letters.head?.any (fun c => decide (c ∈ m.letters)) = true → m = l := by decide
  refine key l (mem_all l) m (mem_all m) (by rw [hl]; rfl) ?_
  rw [hl]
  exact decide_eq_true h

theorem Free.not_mem (hf : Free cs) (hl : l.letters = [c]) : c ∉ cs := by
  intro hc
  obtain ⟨before, behind, rfl⟩ := List.append_of_mem hc
  refine hf l ⟨before, behind, ?_⟩
  rw [hl, List.append_assoc, List.singleton_append]

theorem not_mem_of_blank (hl : l.letters = [c]) (hb : gap.all Text.isBlank = true) : c ∉ gap := by
  intro hc
  have hblank := List.all_eq_true.mp hb c hc
  rw [l.not_isBlank (by rw [hl]; exact List.mem_cons_self)] at hblank
  cases hblank

/-- The text of a token holds the letter once if the token is the literal, and
otherwise not at all. -/
theorem Token.count_text (hl : l.letters = [c])
    (hfree : t.literal? = none → Free t.text.toList) :
    t.text.toList.count c = [t].count (.literal l) := by
  by_cases ht : t = .literal l
  · subst ht
    show l.letters.count c = _
    rw [hl]
    simp
  · have hnot : c ∉ t.text.toList := by
      cases t with
      | comment text => exact (hfree rfl).not_mem hl
      | literal m =>
          intro hc
          exact ht (congrArg Token.literal (Literal.eq_of_mem_letters hl hc))
    rw [List.count_eq_zero.mpr hnot]
    simp [ht]

/-! ## §3. Letters of a source and tokens of its program. -/

/-- **The letter stands in a source as often as its literal in the program.** -/
theorem Tiles.count_eq (h : Tiles offset cs xs) (hl : l.letters = [c]) :
    cs.count c = (xs.map Lexeme.token).count (.literal l) := by
  induction h with
  | rest free => rw [List.count_eq_zero.mpr (free.not_mem hl), List.map_nil, List.count_nil]
  | @lexeme _ gap behind t xs blank text_ne comment_free tiles ih =>
      rw [List.count_append, List.count_append, ih,
        List.count_eq_zero.mpr (not_mem_of_blank hl blank), Token.count_text hl comment_free,
        Nat.zero_add, ← List.count_append]
      rfl

/-- **A tiled text, cut at the letter of a literal**: the letter is a lexeme,
and those before it tile what precedes its blanks. -/
theorem Tiles.cut (h : Tiles offset cs xs) (hl : l.letters = [c]) (hj : cs[j]? = some c) :
    ∃ ys x zs before gap, xs = ys ++ x :: zs ∧ x.token = .literal l ∧ Tiles offset before ys ∧
      gap.all Text.isBlank = true ∧ cs.take j = before ++ gap := by
  induction h generalizing j with
  | rest free => exact absurd (List.mem_of_getElem? hj) (free.not_mem hl)
  | @lexeme offset gap behind t xs blank text_ne comment_free tiles ih =>
      -- The letter is in the blanks, in the text of the lexeme, or behind it.
      by_cases hgap : j < gap.length
      · rw [List.append_assoc, List.getElem?_append_left hgap] at hj
        exact absurd (List.mem_of_getElem? hj) (not_mem_of_blank hl blank)
      by_cases htext : j < (gap ++ t.text.toList).length
      · rw [List.getElem?_append_left htext, List.getElem?_append_right (by omega)] at hj
        have hmem := List.mem_of_getElem? hj
        cases t with
        | comment text => exact absurd hmem ((comment_free rfl).not_mem hl)
        | literal m =>
            obtain rfl := Literal.eq_of_mem_letters hl hmem
            have hone : (Token.literal m).text.toList = [c] := hl
            rw [List.length_append, hone, List.length_singleton] at htext
            obtain rfl : j = gap.length := by omega
            refine ⟨[], _, xs, [], gap, rfl, rfl, .rest free_nil, blank, ?_⟩
            rw [List.append_assoc, List.take_left, List.nil_append]
      · obtain ⟨d, rfl⟩ := Nat.exists_eq_add_of_le (Nat.le_of_not_lt htext)
        rw [List.getElem?_append_right (Nat.le_add_right _ _), Nat.add_sub_cancel_left] at hj
        obtain ⟨ys, x, zs, before, gap', rfl, hx, hbefore, hgap', htake⟩ := ih hj
        refine ⟨_ :: ys, x, zs, gap ++ t.text.toList ++ before, gap', rfl, hx,
          .lexeme blank text_ne comment_free hbefore, hgap', ?_⟩
        rw [List.take_length_add_append, htake, ← List.append_assoc]

/-! ## §4. Nesting in a source and in its program. -/

namespace Program

variable {p : Program} {limit : Option Nat} {i : Nat} {fault : Fault}

theorem token?_of_split (h : p.lexemes.toList = ys ++ x :: zs) :
    p.token? ys.length = some x.token := by
  rw [token?, ← Array.getElem?_toList, h, List.getElem?_append_right (Nat.le_refl _),
    Nat.sub_self, List.getElem?_cons_zero, Option.map_some]

theorem take_tokens_of_split (h : p.lexemes.toList = ys ++ x :: zs) :
    p.tokens.take ys.length = ys.map Lexeme.token := by
  rw [tokens, h, ← List.map_take, List.take_left]

/-- The depth in the source is the balance in the program. -/
theorem balance_eq_depth (h : p.lexemes.toList = ys ++ x :: zs) (hbefore : Tiles offset before ys)
    (hgap : gap.all Text.isBlank = true) (htake : cs.take j = before ++ gap) :
    p.balance ys.length = Text.depthAt cs j := by
  have hcount : ∀ {l : Literal} {c : Char}, l.letters = [c] →
      (cs.take j).count c = (ys.map Lexeme.token).count (.literal l) := by
    intro l c hl
    rw [htake, List.count_append, hbefore.count_eq hl,
      List.count_eq_zero.mpr (not_mem_of_blank hl hgap), Nat.add_zero]
  have hopen := hcount (l := .loopBegin) (c := '(') (by decide)
  have hclose := hcount (l := .loopEnd) (c := ')') (by decide)
  rw [balance, Text.depthAt, take_tokens_of_split h, hopen, hclose]

/-- A character that breaks the nesting is a token that does. -/
theorem violates_of_breaksNesting (h : p.lexemes.toList = ys ++ x :: zs)
    (hx : x.token = .literal l) (hl : l.letters = [c]) (hbefore : Tiles offset before ys)
    (hgap : gap.all Text.isBlank = true) (htake : cs.take j = before ++ gap)
    (hbreaks : Text.BreaksNesting cs limit j c) : ∃ f, p.Violates limit ys.length f := by
  have htoken := token?_of_split h
  have hdepth := balance_eq_depth h hbefore hgap htake
  have hmem : c ∈ l.letters := by
    rw [hl]
    exact List.mem_cons_self
  rw [hx] at htoken
  cases hbreaks with
  | closing closes none_open =>
      obtain rfl := Literal.eq_of_mem_letters (l := .loopEnd) (by decide) hmem
      exact ⟨_, .closing htoken (hdepth.trans none_open)⟩
  | opening opens has_limit too_deep =>
      obtain rfl := Literal.eq_of_mem_letters (l := .loopBegin) (by decide) hmem
      exact ⟨_, .opening htoken has_limit (by rw [hdepth]; exact too_deep)⟩

/-- A token that breaks the nesting is a bracket. -/
theorem Violates.bracket (h : p.Violates limit i fault) :
    ∃ l c, l.letters = [c] ∧ p.token? i = some (.literal l) ∧ fault.bracket? = some (i, c) := by
  cases h with
  | closing closes none_open => exact ⟨.loopEnd, ')', by decide, closes, rfl⟩
  | opening opens has_limit too_deep => exact ⟨.loopBegin, '(', by decide, opens, rfl⟩

/-- A token that breaks the nesting is a character that does. -/
theorem Violates.breaksNesting (h : p.Violates limit i fault)
    (hc : fault.bracket? = some (i, c)) (hj : cs[j]? = some c)
    (hdepth : p.balance i = Text.depthAt cs j) : Text.BreaksNesting cs limit j c := by
  cases h with
  | closing closes none_open =>
      obtain rfl : ')' = c := congrArg Prod.snd (Option.some.inj hc)
      exact .closing hj (hdepth.symm.trans none_open)
  | opening opens has_limit too_deep =>
      obtain rfl : '(' = c := congrArg Prod.snd (Option.some.inj hc)
      exact .opening hj has_limit (by rw [← hdepth]; exact too_deep)

/-- A character that breaks the nesting is the letter of a literal. -/
theorem letter_of_breaksNesting (h : Text.BreaksNesting cs limit j c) :
    ∃ l : Literal, l.letters = [c] ∧ cs[j]? = some c := by
  cases h with
  | closing closes none_open => exact ⟨.loopEnd, by decide, closes⟩
  | opening opens has_limit too_deep => exact ⟨.loopBegin, by decide, opens⟩

/-- Where no token breaks the nesting, no character does. -/
theorem nested_of_tiles {behind : List Char} (h : p.lexemes.toList = ys ++ zs)
    (hbefore : Tiles offset before ys) (hcs : cs = before ++ behind)
    (hsound : ∀ i < ys.length, ∀ f, ¬ p.Violates limit i f) (hj : j < before.length) :
    ¬ Text.BreaksNesting cs limit j c := by
  intro hbreaks
  obtain ⟨m, hm, hat⟩ := letter_of_breaksNesting hbreaks
  rw [hcs, List.getElem?_append_left hj] at hat
  obtain ⟨ys', x, zs', before', gap, rfl, hx, hbefore', hgap, htake⟩ := hbefore.cut hm hat
  have hsplit : p.lexemes.toList = ys' ++ x :: (zs' ++ zs) := by
    rw [h, List.append_assoc, List.cons_append]
  have hsame : cs.take j = before.take j := by
    rw [hcs, List.take_append_of_le_length (Nat.le_of_lt hj)]
  obtain ⟨f, hviolates⟩ := violates_of_breaksNesting hsplit hx hm hbefore' hgap
    (hsame.trans htake) hbreaks
  refine hsound ys'.length ?_ f hviolates
  rw [List.length_append, List.length_cons]
  omega

/-- **THE FIRST TOKEN THAT BREAKS THE NESTING IS THE FIRST CHARACTER THAT
DOES**, and its span begins there. -/
theorem FirstViolation.firstBreak {source : String}
    (h : (ofSource source).FirstViolation limit i fault) :
    ∃ place c sp, fault.bracket? = some (i, c) ∧ (ofSource source).span? i = some sp ∧
      sp.start = byteWidth (source.toList.take place) ∧
      Text.FirstBreak source.toList limit place c := by
  obtain ⟨l, c, hl, htoken, hfault⟩ := h.violates.bracket
  obtain ⟨ys, x, zs, before, gap, behind, hsplit, hlen, hx, hcs, hgap, hspan, hbefore⟩ :=
    ofSource_cut htoken
  -- The bracket stands behind the blanks.
  have htext : (Token.literal l).text.toList = [c] := hl
  rw [htext, List.append_assoc] at hcs
  have htake : source.toList.take (before ++ gap).length = before ++ gap := by
    rw [hcs, List.take_left]
  have hat : source.toList[(before ++ gap).length]? = some c := by
    rw [hcs, List.getElem?_append_right (Nat.le_refl _), Nat.sub_self]
    rfl
  have hdepth := balance_eq_depth hsplit hbefore hgap htake
  rw [hlen] at hdepth
  refine ⟨(before ++ gap).length, c, _, hfault, hspan, ?_,
    h.violates.breaksNesting hfault hat hdepth, ?_⟩
  · rw [htake]
  · intro j hj d hbreaks
    -- An earlier bracket is not in the blanks, so it is an earlier token.
    by_cases hfront : j < before.length
    · rw [List.append_assoc] at hcs
      refine nested_of_tiles hsplit hbefore hcs (fun i' hi' => h.first i' ?_) hfront hbreaks
      rw [← hlen]
      exact hi'
    · obtain ⟨m, hm, hjd⟩ := letter_of_breaksNesting hbreaks
      rw [hcs, List.getElem?_append_left hj,
        List.getElem?_append_right (Nat.le_of_not_lt hfront)] at hjd
      exact not_mem_of_blank hm hgap (List.mem_of_getElem? hjd)

end Program

end

end Prairie
