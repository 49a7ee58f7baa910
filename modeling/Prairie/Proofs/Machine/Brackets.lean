/-
  Prairie.Proofs.Machine.Brackets
  ───────────────────────────────
  **THE BRACKETS OF A PROGRAM, READ WITHOUT RUNNING IT.**

  Three static readings of the same brackets and how they hang together:

    • `balance p i`    how many more `(` than `)` stand before token `i`,
    • `enclosing p i`  the brackets that stand open around token `i`,
    • `Matches p o c`  the bracket `c` closes what the bracket `o` opened.

  The list of open brackets is computed by one walk over the program; it is
  pinned down by the balance alone:

      enclosing p i = o :: _  ↔  o stands open innermost at i
      opener? p c = some o    ↔  Matches p o c

  As long as no bracket closes what was never opened, the length of the list
  IS the balance (`length_enclosing`).
-/
import Prairie.Machine.Fault
import Prairie.Source.Program

namespace Prairie.Program

/-! ## §1. Counting brackets. -/

/-- Token `i` opens a loop. -/
def Opens (p : Program) (i : Nat) : Prop := p.token? i = some (.literal .loopBegin)

/-- Token `i` closes a loop. -/
def Closes (p : Program) (i : Nat) : Prop := p.token? i = some (.literal .loopEnd)

instance (p : Program) (i : Nat) : Decidable (p.Opens i) :=
  inferInstanceAs (Decidable (p.token? i = some (.literal .loopBegin)))

instance (p : Program) (i : Nat) : Decidable (p.Closes i) :=
  inferInstanceAs (Decidable (p.token? i = some (.literal .loopEnd)))

/-- The number of opening brackets minus the number of closing ones among the
tokens before `i`. -/
def balance (p : Program) (i : Nat) : Int :=
  (p.tokens.take i).count (.literal .loopBegin) - (p.tokens.take i).count (.literal .loopEnd)

/-- A token other than the two brackets. -/
theorem neither_of_token? {p : Program} {i : Nat} {t : Token} (ht : p.token? i = some t)
    (ho : t ≠ .literal .loopBegin) (hc : t ≠ .literal .loopEnd) :
    ¬ p.Opens i ∧ ¬ p.Closes i := by
  unfold Opens Closes
  rw [ht]
  refine ⟨fun h => ho ?_, fun h => hc ?_⟩
  · injection h
  · injection h

theorem Opens.not_closes {p : Program} {i : Nat} (h : p.Opens i) : ¬ p.Closes i := by
  unfold Opens at h
  unfold Closes
  rw [h]
  simp

@[simp] theorem balance_zero (p : Program) : p.balance 0 = 0 := by
  simp [balance]

theorem take_succ_tokens (p : Program) (i : Nat) :
    p.tokens.take (i + 1) = p.tokens.take i ++ (p.token? i).toList := by
  rw [p.token?_eq, List.take_add_one]

theorem balance_succ_of_opens {p : Program} {i : Nat} (h : p.Opens i) :
    p.balance (i + 1) = p.balance i + 1 := by
  unfold Opens at h
  simp only [balance, p.take_succ_tokens i, h, List.count_append, Option.toList_some,
    List.count_singleton]
  simp
  omega

theorem balance_succ_of_closes {p : Program} {i : Nat} (h : p.Closes i) :
    p.balance (i + 1) = p.balance i - 1 := by
  unfold Closes at h
  simp only [balance, p.take_succ_tokens i, h, List.count_append, Option.toList_some,
    List.count_singleton]
  simp
  omega

theorem balance_succ_of_neither {p : Program} {i : Nat} (ho : ¬ p.Opens i)
    (hc : ¬ p.Closes i) : p.balance (i + 1) = p.balance i := by
  unfold Opens at ho
  unfold Closes at hc
  rw [balance, balance, p.take_succ_tokens i]
  cases ht : p.token? i with
  | none => simp
  | some t =>
      rw [ht] at ho hc
      simp only [List.count_append, Option.toList_some, List.count_singleton]
      have h1 : (t == Token.literal .loopBegin) = false := by
        rw [beq_eq_false_iff_ne]
        exact fun h => ho (by rw [h])
      have h2 : (t == Token.literal .loopEnd) = false := by
        rw [beq_eq_false_iff_ne]
        exact fun h => hc (by rw [h])
      simp [h1, h2]

/-! ## §2. The brackets that stand open. -/

/-- The brackets that stand open around token `i`, innermost first.  A closing
bracket that closes nothing leaves the list empty. -/
def enclosing (p : Program) : Nat → List Nat
  | 0 => []
  | i + 1 =>
      if p.Opens i then i :: enclosing p i
      else if p.Closes i then (enclosing p i).tail
      else enclosing p i

theorem enclosing_succ_of_opens {p : Program} {i : Nat} (h : p.Opens i) :
    p.enclosing (i + 1) = i :: p.enclosing i := by
  rw [enclosing, if_pos h]

theorem enclosing_succ_of_closes {p : Program} {i : Nat} (h : p.Closes i) :
    p.enclosing (i + 1) = (p.enclosing i).tail := by
  rw [enclosing, if_neg fun ho => ho.not_closes h, if_pos h]

theorem enclosing_succ_of_neither {p : Program} {i : Nat} (ho : ¬ p.Opens i)
    (hc : ¬ p.Closes i) : p.enclosing (i + 1) = p.enclosing i := by
  rw [enclosing, if_neg ho, if_neg hc]

/-- Where programs have the same token at related positions and related brackets
stand open there, related brackets stand open behind it. -/
theorem enclosing_succ_map {p q : Program} {f : Nat → Nat} {i : Nat}
    (ht : q.token? (f i) = p.token? i) (h : q.enclosing (f i) = (p.enclosing i).map f) :
    q.enclosing (f i + 1) = (p.enclosing (i + 1)).map f := by
  have hopens : q.Opens (f i) ↔ p.Opens i := by
    unfold Opens
    rw [ht]
  have hcloses : q.Closes (f i) ↔ p.Closes i := by
    unfold Closes
    rw [ht]
  by_cases ho : p.Opens i
  · rw [enclosing_succ_of_opens ho, enclosing_succ_of_opens (hopens.mpr ho), h, List.map_cons]
  · by_cases hc : p.Closes i
    · rw [enclosing_succ_of_closes hc, enclosing_succ_of_closes (hcloses.mpr hc), h, List.map_tail]
    · rw [enclosing_succ_of_neither ho hc,
        enclosing_succ_of_neither (mt hopens.mp ho) (mt hcloses.mp hc), h]

/-- The bracket `o` is the innermost one that stands open at `i`: it opens
before `i`, and the balance never falls back below what it is inside. -/
structure Innermost (p : Program) (o i : Nat) : Prop where
  lt : o < i
  opens : p.Opens o
  balance_eq : p.balance i = p.balance (o + 1)
  le_balance : ∀ j, o < j → j ≤ i → p.balance (o + 1) ≤ p.balance j

theorem Innermost.unique {p : Program} {o o' i : Nat} (h : p.Innermost o i)
    (h' : p.Innermost o' i) : o = o' := by
  have hb := balance_succ_of_opens h.opens
  have hb' := balance_succ_of_opens h'.opens
  have he := h.balance_eq
  have he' := h'.balance_eq
  have hi := h.lt
  have hi' := h'.lt
  -- The inner one of two would lift the balance above that of the outer one.
  rcases Nat.lt_trichotomy o o' with hlt | heq | hgt
  · have := h.le_balance o' hlt (by omega)
    omega
  · exact heq
  · have := h'.le_balance o hgt (by omega)
    omega

theorem innermost_succ_of_opens {p : Program} {i : Nat} (h : p.Opens i) :
    p.Innermost i (i + 1) := by
  refine ⟨Nat.lt_succ_self i, h, rfl, fun j hj hj' => ?_⟩
  obtain rfl : j = i + 1 := by omega
  exact Int.le_refl _

/-- Behind a closing bracket the one that was innermost where the closed loop
was opened is innermost again. -/
theorem Innermost.succ_of_closes {p : Program} {o o' i : Nat} (hc : p.Closes i)
    (h' : p.Innermost o' i) (h : p.Innermost o o') : p.Innermost o (i + 1) := by
  have hi := balance_succ_of_closes hc
  have ho' := balance_succ_of_opens h'.opens
  have he' := h'.balance_eq
  have he := h.balance_eq
  have hlt := h.lt
  have hlt' := h'.lt
  refine ⟨by omega, h.opens, by omega, fun j hj hj' => ?_⟩
  -- Before, inside and behind the loop that was closed.
  by_cases hle : j ≤ o'
  · exact h.le_balance j hj hle
  · by_cases hji : j ≤ i
    · have := h'.le_balance j (by omega) hji
      omega
    · obtain rfl : j = i + 1 := by omega
      omega

theorem Innermost.succ_of_neither {p : Program} {o i : Nat} (ho : ¬ p.Opens i)
    (hc : ¬ p.Closes i) (h : p.Innermost o i) : p.Innermost o (i + 1) := by
  have hi := balance_succ_of_neither ho hc
  have he := h.balance_eq
  refine ⟨Nat.lt_succ_of_lt h.lt, h.opens, by omega, fun j hj hj' => ?_⟩
  by_cases hji : j ≤ i
  · exact h.le_balance j hj hji
  · obtain rfl : j = i + 1 := by omega
    omega

/-- The head of the list stands open innermost, and behind it stand the
brackets that were open when it was reached. -/
theorem innermost_of_enclosing {p : Program} :
    ∀ {i o : Nat} {rest : List Nat}, p.enclosing i = o :: rest →
      p.Innermost o i ∧ rest = p.enclosing o := by
  intro i
  -- Strong induction: behind a closing bracket the claim is needed at the
  -- place where its loop was opened.
  induction i using Nat.strongRecOn with
  | ind i ih =>
      intro o rest h
      cases i with
      | zero => cases h
      | succ i =>
          by_cases ho : p.Opens i
          · rw [enclosing_succ_of_opens ho] at h
            injection h with h1 h2
            subst h1
            exact ⟨innermost_succ_of_opens ho, h2.symm⟩
          · by_cases hc : p.Closes i
            · -- The list lost its head `o'`; what is left was the list at `o'`.
              rw [enclosing_succ_of_closes hc] at h
              obtain ⟨o', hi⟩ : ∃ o', p.enclosing i = o' :: o :: rest := by
                cases hi : p.enclosing i with
                | nil => rw [hi] at h; cases h
                | cons o' tl => rw [hi] at h; exact ⟨o', by rw [← h]; rfl⟩
              obtain ⟨hin', htl⟩ := ih i (by omega) hi
              have hlt' := hin'.lt
              obtain ⟨hin, hrest⟩ := ih o' (by omega) htl.symm
              exact ⟨hin'.succ_of_closes hc hin, hrest⟩
            · rw [enclosing_succ_of_neither ho hc] at h
              obtain ⟨hin, hrest⟩ := ih i (by omega) h
              exact ⟨hin.succ_of_neither ho hc, hrest⟩

/-- Where no bracket stands open the balance is as low as it ever was. -/
theorem balance_le_of_enclosing_nil {p : Program} :
    ∀ {i : Nat}, p.enclosing i = [] → ∀ j ≤ i, p.balance i ≤ p.balance j := by
  intro i
  induction i using Nat.strongRecOn with
  | ind i ih =>
      intro h j hj
      rcases Nat.eq_or_lt_of_le hj with rfl | hlt
      · exact Int.le_refl _
      cases i with
      | zero => omega
      | succ i =>
          by_cases ho : p.Opens i
          · rw [enclosing_succ_of_opens ho] at h
            cases h
          · by_cases hc : p.Closes i
            · have hb := balance_succ_of_closes hc
              rw [enclosing_succ_of_closes hc] at h
              cases hi : p.enclosing i with
              | nil =>
                  have := ih i (by omega) hi j (by omega)
                  omega
              | cons o tl =>
                  -- The loop closed here was opened at `o`, where none was open.
                  rw [hi] at h
                  obtain ⟨hin, htl⟩ := innermost_of_enclosing hi
                  have hoi := hin.lt
                  have hbo := balance_succ_of_opens hin.opens
                  have hbi := hin.balance_eq
                  by_cases hjo : j ≤ o
                  · have := ih o (by omega) (by rw [← htl]; exact h) j hjo
                    omega
                  · have := hin.le_balance j (by omega) (by omega)
                    omega
            · rw [enclosing_succ_of_neither ho hc] at h
              rw [balance_succ_of_neither ho hc]
              exact ih i (by omega) h j (by omega)

/-- **The walk finds the innermost open bracket.** -/
theorem head?_enclosing_eq_some_iff {p : Program} {o i : Nat} :
    (p.enclosing i).head? = some o ↔ p.Innermost o i := by
  constructor
  · intro h
    cases hi : p.enclosing i with
    | nil => rw [hi] at h; cases h
    | cons o' rest =>
        rw [hi, List.head?_cons] at h
        injection h with h
        subst h
        exact (innermost_of_enclosing hi).1
  · intro h
    cases hi : p.enclosing i with
    | nil =>
        have hlt := h.lt
        have := balance_le_of_enclosing_nil hi o (by omega)
        have := balance_succ_of_opens h.opens
        have := h.balance_eq
        omega
    | cons o' rest =>
        rw [List.head?_cons, h.unique (innermost_of_enclosing hi).1]

/-! ## §3. Matching brackets. -/

/-- The bracket `c` closes the loop that the bracket `o` opens. -/
def Matches (p : Program) (o c : Nat) : Prop := p.Closes c ∧ p.Innermost o c

/-- The bracket that the bracket `c` closes, if there is one. -/
def opener? (p : Program) (c : Nat) : Option Nat :=
  if p.Closes c then (p.enclosing c).head? else none

theorem opener?_eq_some_iff {p : Program} {o c : Nat} :
    p.opener? c = some o ↔ p.Matches o c := by
  unfold opener? Matches
  by_cases hc : p.Closes c
  · rw [if_pos hc, head?_enclosing_eq_some_iff]
    exact ⟨fun h => ⟨hc, h⟩, fun h => h.2⟩
  · rw [if_neg hc]
    constructor
    · intro h
      cases h
    · intro h
      exact absurd h.1 hc

/-- There, related brackets are closed. -/
theorem opener?_map {p q : Program} {f : Nat → Nat} {i : Nat}
    (ht : q.token? (f i) = p.token? i) (h : q.enclosing (f i) = (p.enclosing i).map f) :
    q.opener? (f i) = (p.opener? i).map f := by
  have hcloses : q.Closes (f i) ↔ p.Closes i := by
    unfold Closes
    rw [ht]
  unfold opener?
  by_cases hc : p.Closes i
  · rw [if_pos hc, if_pos (hcloses.mpr hc), h, List.head?_map]
  · rw [if_neg hc, if_neg (mt hcloses.mp hc), Option.map_none]

theorem opener?_of_enclosing {p : Program} {o c : Nat} {rest : List Nat} (hc : p.Closes c)
    (h : p.enclosing c = o :: rest) : p.opener? c = some o := by
  rw [opener?, if_pos hc, h, List.head?_cons]

/-- Where a bracket stands open innermost, the same brackets stand open as
right behind it. -/
theorem enclosing_of_innermost {p : Program} {o i : Nat} (h : p.Innermost o i) :
    p.enclosing i = o :: p.enclosing o := by
  have hhead := head?_enclosing_eq_some_iff.mpr h
  cases hi : p.enclosing i with
  | nil => rw [hi] at hhead; cases hhead
  | cons o' rest =>
      rw [hi, List.head?_cons] at hhead
      injection hhead with hhead
      rw [hhead] at hi ⊢
      rw [(innermost_of_enclosing hi).2]

/-- No bracket is open innermost behind the one that closes it. -/
theorem Matches.le_of_innermost {p : Program} {o c i : Nat} (h : p.Matches o c)
    (hi : p.Innermost o i) : i ≤ c := by
  obtain ⟨hc, hin⟩ := h
  have hb := balance_succ_of_closes hc
  have he := hin.balance_eq
  have hlt := hin.lt
  refine Nat.le_of_not_lt fun hci => ?_
  have := hi.le_balance (c + 1) (by omega) hci
  omega

/-- While a bracket inside stands open, the one around it is not innermost. -/
theorem Innermost.not_inside {p : Program} {o q c i : Nat} (ho : p.Innermost o q)
    (h : p.Innermost q c) (hlt : q < i) (hle : i ≤ c) : ¬ p.Innermost o i := by
  intro hi
  have hbq := balance_succ_of_opens h.opens
  have hbo := ho.balance_eq
  have hbi := hi.balance_eq
  have := h.le_balance i hlt hle
  omega

/-- A bracket that is never closed stands open to the end. -/
theorem suffix_enclosing_of_unclosed {p : Program} {q i : Nat} (hq : p.Opens q)
    (hun : ∀ c, ¬ p.Matches q c) (hlt : q < i) : q :: p.enclosing q <:+ p.enclosing i := by
  induction hlt with
  | refl => exact enclosing_succ_of_opens hq ▸ List.suffix_refl _
  | @step i hlt ih =>
      by_cases ho : p.Opens i
      · rw [enclosing_succ_of_opens ho]
        exact ih.trans (List.suffix_cons _ _)
      · by_cases hc : p.Closes i
        · rw [enclosing_succ_of_closes hc]
          -- What is closed here is not `q`, so it stands before `q` in the list.
          cases henc : p.enclosing i with
          | nil =>
              rw [henc] at ih
              exact absurd ih (by simp)
          | cons x rest =>
              rw [henc, List.suffix_cons_iff] at ih
              rcases ih with heq | hsuffix
              · injection heq with hx _
                subst hx
                exact absurd ⟨hc, (innermost_of_enclosing henc).1⟩ (hun i)
              · exact hsuffix
        · rw [enclosing_succ_of_neither ho hc]
          exact ih

/-- Behind a bracket that is never closed no outer one is innermost. -/
theorem not_innermost_of_unclosed {p : Program} {o q i : Nat} (hq : p.Opens q)
    (ho : p.Innermost o q) (hun : ∀ c, ¬ p.Matches q c) (hlt : q < i) : ¬ p.Innermost o i := by
  intro hi
  have hle := (suffix_enclosing_of_unclosed hq hun hlt).length_le
  rw [enclosing_of_innermost hi, ← enclosing_of_innermost ho, List.length_cons] at hle
  omega

/-- A loop with one in it that is never closed is never closed itself. -/
theorem unclosed_of_inner {p : Program} {o q : Nat} (hq : p.Opens q) (ho : p.Innermost o q)
    (hun : ∀ c, ¬ p.Matches q c) : ∀ c, ¬ p.Matches o c := by
  intro c h
  have hle := h.le_of_innermost ho
  have hne : q ≠ c := fun heq => hq.not_closes (heq ▸ h.1)
  exact not_innermost_of_unclosed hq ho hun (by omega) h.2

/-! ## §4. Nesting that goes wrong. -/

/-- Token `i` breaks the nesting: it closes what was never opened, or it opens
a loop inside as many others as `limit` allows.  The fault tells which. -/
inductive Violates (p : Program) (limit : Option Nat) (i : Nat) : Fault → Prop where
  | closing (closes : p.Closes i) (none_open : p.balance i = 0) :
      Violates p limit i (.unmatchedLoopEnd i)
  | opening {l : Nat} (opens : p.Opens i) (has_limit : limit = some l)
      (too_deep : (l : Int) ≤ p.balance i) : Violates p limit i (.loopDepthExceeded i l)

/-- Token `i` is the first one that breaks the nesting. -/
structure FirstViolation (p : Program) (limit : Option Nat) (i : Nat) (fault : Fault) :
    Prop where
  violates : p.Violates limit i fault
  first : ∀ j < i, ∀ f, ¬ p.Violates limit j f

theorem Violates.unique {p : Program} {limit : Option Nat} {i : Nat} {f f' : Fault}
    (h : p.Violates limit i f) (h' : p.Violates limit i f') : f = f' := by
  cases h with
  | closing hc _ =>
      cases h' with
      | closing _ _ => rfl
      | opening ho _ _ => exact absurd hc ho.not_closes
  | opening ho hl _ =>
      cases h' with
      | closing hc _ => exact absurd hc ho.not_closes
      | opening _ hl' _ =>
          rw [hl] at hl'
          injection hl' with hl'
          rw [hl']

theorem FirstViolation.unique {p : Program} {limit : Option Nat} {i i' : Nat} {f f' : Fault}
    (h : p.FirstViolation limit i f) (h' : p.FirstViolation limit i' f') :
    i = i' ∧ f = f' := by
  have hi : i = i' := by
    rcases Nat.lt_trichotomy i i' with hlt | heq | hgt
    · exact absurd h.violates (h'.first i hlt f)
    · exact heq
    · exact absurd h'.violates (h.first i' hgt f')
  subst hi
  exact ⟨rfl, h.violates.unique h'.violates⟩

/-- **While the nesting holds, the balance counts the open brackets.** -/
theorem length_enclosing {p : Program} {limit : Option Nat} {i : Nat}
    (h : ∀ j < i, ∀ f, ¬ p.Violates limit j f) :
    ((p.enclosing i).length : Int) = p.balance i := by
  induction i with
  | zero => simp [enclosing]
  | succ i ih =>
      have hlen := ih fun j hj => h j (Nat.lt_succ_of_lt hj)
      by_cases ho : p.Opens i
      · rw [enclosing_succ_of_opens ho, balance_succ_of_opens ho, List.length_cons]
        omega
      · by_cases hc : p.Closes i
        · -- Something stands open, so taking the tail takes one away.
          have hne : p.balance i ≠ 0 := fun h0 =>
            h i (Nat.lt_succ_self i) _ (.closing hc h0)
          rw [enclosing_succ_of_closes hc, balance_succ_of_closes hc, List.length_tail]
          omega
        · rw [enclosing_succ_of_neither ho hc, balance_succ_of_neither ho hc]
          exact hlen

end Prairie.Program
