/-
  Prairie.Proofs.Settings.Section
  ───────────────────────────────
  **THE LAST VALID VALUE IN THE SECTION COUNTS.**

  The settings file is read from the top down, and what has been read so far
  is kept in two places: whether the section of the settings is open, and the
  settings themselves.  What the file means can be said without a reader, by
  the numbers of its lines alone:

      line i is in the section  =  the nearest heading above it is the section's
      line i gives key a value  =  it is in the section and an entry for key
      the file says x for key   =  some line gives key a value that is valid
                                   and means x, and no line below it gives key
                                   a valid value

  One more line at the end of a file is one step of the reader; what it does
  to each of the three is a lemma, and the rest is an induction over the lines.
  Lines without a heading and without an entry for the key have no say.
-/
import Mathlib.Data.List.Induction
import Prairie.Proofs.Text.Numeral
import Prairie.Settings.File

namespace Prairie.Settings

variable {lines : List (List Char)} {line key value title : List Char} {i : Nat}

/-! ## §1. What a value means. -/

/-- The word `none`, in letters of any case. -/
def AnyCaseNone (cs : List Char) : Prop :=
  ∃ n ∈ ['n', 'N'], ∃ o ∈ ['o', 'O'], ∃ n' ∈ ['n', 'N'], ∃ e ∈ ['e', 'E'], cs = [n, o, n', e]

/-- The limit that a number means: zero means none. -/
inductive LimitOf : Nat → Option Nat → Prop where
  | unlimited : LimitOf 0 none
  | limited {n : Nat} (hpos : 0 < n) : LimitOf n (some n)

/-- The limit that a text means: none if it is the word for it, else what its
worth means.  Blanks around it do not count. -/
def DepthText (text : List Char) (d : Option Nat) : Prop :=
  (AnyCaseNone (Text.trim text) ∧ d = none) ∨ ∃ n, Text.Numeral (Text.trim text) n ∧ LimitOf n d

theorem limitOf_iff {n : Nat} {d : Option Nat} : LimitOf n d ↔ depthOf n = d := by
  unfold depthOf
  constructor
  · rintro (_ | hpos)
    · rfl
    · exact if_neg (Nat.ne_of_gt hpos)
  · rintro rfl
    split
    next h =>
        subst h
        exact .unlimited
    next h => exact .limited (Nat.pos_of_ne_zero h)

theorem LimitOf.ne_zero {n : Nat} {d : Option Nat} (h : LimitOf n d) : d ≠ some 0 := by
  rintro rfl
  cases h with
  | limited hpos => exact Nat.lt_irrefl 0 hpos

/-- A limit that a text means is never zero. -/
theorem DepthText.ne_zero {text : List Char} {d : Option Nat} (h : DepthText text d) :
    d ≠ some 0 := by
  rcases h with ⟨-, rfl⟩ | ⟨n, -, hlimit⟩
  · rintro ⟨⟩
  · exact hlimit.ne_zero

/-- The two letters that become the same small letter. -/
theorem toLower_eq_iff {c small capital : Char} (hval : capital.val + 32 = small.val)
    (hsmall : small.toLower = small) (hcapital : capital.toLower = small) :
    c.toLower = small ↔ c = small ∨ c = capital := by
  constructor
  · intro h
    unfold Char.toLower at h
    split at h
    next =>
        have hc : c.val + 32 = small.val := congrArg Char.val h
        rw [← hval, UInt32.add_left_inj] at hc
        exact .inr (Char.ext hc)
    next => exact .inl h
  · rintro (rfl | rfl)
    · exact hsmall
    · exact hcapital

theorem map_toLower_eq_none_iff {cs : List Char} :
    cs.map Char.toLower = "none".toList ↔ AnyCaseNone cs := by
  have hn (c : Char) : c.toLower = 'n' ↔ c = 'n' ∨ c = 'N' := toLower_eq_iff rfl rfl rfl
  have ho (c : Char) : c.toLower = 'o' ↔ c = 'o' ∨ c = 'O' := toLower_eq_iff rfl rfl rfl
  have he (c : Char) : c.toLower = 'e' ↔ c = 'e' ∨ c = 'E' := toLower_eq_iff rfl rfl rfl
  show cs.map Char.toLower = ['n', 'o', 'n', 'e'] ↔ _
  unfold AnyCaseNone
  constructor
  · intro h
    obtain ⟨a, cs, rfl, ha, h⟩ := List.map_eq_cons_iff.mp h
    obtain ⟨b, cs, rfl, hb, h⟩ := List.map_eq_cons_iff.mp h
    obtain ⟨c, cs, rfl, hc, h⟩ := List.map_eq_cons_iff.mp h
    obtain ⟨d, cs, rfl, hd, h⟩ := List.map_eq_cons_iff.mp h
    rw [List.map_eq_nil_iff] at h
    subst h
    exact ⟨a, by simpa using (hn a).mp ha, b, by simpa using (ho b).mp hb,
      c, by simpa using (hn c).mp hc, d, by simpa using (he d).mp hd, rfl⟩
  · rintro ⟨a, ha, b, hb, c, hc, d, hd, rfl⟩
    simp only [List.mem_cons, List.not_mem_nil, or_false] at ha hb hc hd
    rw [List.map_cons, List.map_cons, List.map_cons, List.map_cons, List.map_nil,
      (hn a).mpr ha, (ho b).mpr hb, (hn c).mpr hc, (he d).mpr hd]

/-- The word for no limit is no numeral. -/
theorem AnyCaseNone.not_numeral {cs : List Char} (h : AnyCaseNone cs) (n : Nat) :
    ¬ Text.Numeral cs n := by
  obtain ⟨a, ha, b, -, c, -, d, -, rfl⟩ := h
  simp only [List.mem_cons, List.not_mem_nil, or_false] at ha
  rintro (hdigits | ⟨ds, hplus, -⟩)
  · have hdigit := hdigits.2.1 a List.mem_cons_self
    rcases ha with rfl | rfl <;> exact absurd hdigit (by decide)
  · have hsign := (List.cons.inj hplus).1
    rcases ha with rfl | rfl <;> exact absurd hsign (by decide)

/-- **The reader of limits reads what a text means.** -/
theorem depth?_eq_some_iff {text : List Char} {d : Option Nat} :
    depth? text = some d ↔ DepthText text d := by
  unfold depth? DepthText
  dsimp only
  split
  next hlower =>
      have hword := map_toLower_eq_none_iff.mp hlower
      constructor
      · intro h
        exact .inl ⟨hword, (Option.some.inj h).symm⟩
      · rintro (⟨-, rfl⟩ | ⟨n, hnum, -⟩)
        · rfl
        · exact absurd hnum (hword.not_numeral n)
  next hlower =>
      have hword : ¬ AnyCaseNone (Text.trim text) := fun h => hlower (map_toLower_eq_none_iff.mpr h)
      simp only [Option.map_eq_some_iff, Text.numeral?_eq_some_iff, limitOf_iff]
      constructor
      · intro h
        exact .inr h
      · rintro (⟨h, -⟩ | h)
        · exact absurd h hword
        · exact h

/-! ## §2. What a file says. -/

/-- Line `i` is a heading with the text `title`. -/
def HeadingAt (lines : List (List Char)) (i : Nat) (title : List Char) : Prop :=
  ∃ line, lines[i]? = some line ∧ Line.read line = .heading title

/-- A line at `i` is in the section: the nearest heading above it is the section's. -/
def Within (lines : List (List Char)) (i : Nat) : Prop :=
  ∃ j < i, HeadingAt lines j "interpreter".toList ∧
    ∀ k, j < k → k < i → ∀ title, ¬ HeadingAt lines k title

/-- Line `i` gives `key` a value: it is in the section and an entry for `key`. -/
def GivenAt (lines : List (List Char)) (key : List Char) (i : Nat) (value : List Char) : Prop :=
  Within lines i ∧ ∃ line, lines[i]? = some line ∧ Line.read line = .entry key value

/-- The last valid value given to `key` means `x`. -/
def LastGiven {α : Type} (means : List Char → α → Prop) (key : List Char)
    (lines : List (List Char)) (x : α) : Prop :=
  ∃ i value, GivenAt lines key i value ∧ means value x ∧
    ∀ j later, i < j → GivenAt lines key j later → ∀ y, ¬ means later y

/-- No valid value is given to `key`. -/
def NeverGiven {α : Type} (means : List Char → α → Prop) (key : List Char)
    (lines : List (List Char)) : Prop :=
  ∀ i value, GivenAt lines key i value → ∀ y, ¬ means value y

/-- A file says one thing for a key, if what is valid means one thing. -/
theorem LastGiven.unique {α : Type} {means : List Char → α → Prop} {x y : α}
    (hmeans : ∀ value x y, means value x → means value y → x = y)
    (hx : LastGiven means key lines x) (hy : LastGiven means key lines y) : x = y := by
  obtain ⟨i, value, hi, hvalue, hlast⟩ := hx
  obtain ⟨j, value', hj, hvalue', hlast'⟩ := hy
  -- The upper one of two different lines has a valid value below it.
  rcases Nat.lt_trichotomy i j with hlt | rfl | hlt
  · exact absurd hvalue' (hlast j value' hlt hj y)
  · obtain ⟨-, line, hline, hread⟩ := hi
    obtain ⟨-, line', hline', hread'⟩ := hj
    rw [hline] at hline'
    cases hline'
    rw [hread] at hread'
    cases hread'
    exact hmeans value x y hvalue hvalue'
  · exact absurd hvalue (hlast' i value hlt hi x)

/-! ## §3. One more line. -/

theorem headingAt_concat (hi : i < lines.length) :
    HeadingAt (lines ++ [line]) i title ↔ HeadingAt lines i title := by
  unfold HeadingAt
  rw [List.getElem?_append_left hi]

theorem headingAt_length :
    HeadingAt (lines ++ [line]) lines.length title ↔ Line.read line = .heading title := by
  unfold HeadingAt
  rw [List.getElem?_concat_length]
  constructor
  · rintro ⟨line', hline, hread⟩
    cases hline
    exact hread
  · intro hread
    exact ⟨line, rfl, hread⟩

/-- What stands at a line or below it does not matter for being in the section. -/
theorem within_concat (hi : i ≤ lines.length) :
    Within (lines ++ [line]) i ↔ Within lines i := by
  constructor
  · rintro ⟨j, hj, hhead, hnone⟩
    refine ⟨j, hj, (headingAt_concat (by omega)).mp hhead, fun k hjk hki title hk => ?_⟩
    exact hnone k hjk hki title ((headingAt_concat (by omega)).mpr hk)
  · rintro ⟨j, hj, hhead, hnone⟩
    refine ⟨j, hj, (headingAt_concat (by omega)).mpr hhead, fun k hjk hki title hk => ?_⟩
    exact hnone k hjk hki title ((headingAt_concat (by omega)).mp hk)

/-- A heading decides about the lines below it. -/
theorem within_length_of_heading (h : Line.read line = .heading title) :
    Within (lines ++ [line]) (lines ++ [line]).length ↔ title = "interpreter".toList := by
  rw [List.length_append, List.length_singleton]
  constructor
  · rintro ⟨j, hj, hhead, hnone⟩
    have hlast : HeadingAt (lines ++ [line]) lines.length title := headingAt_length.mpr h
    -- No heading above can be nearer than the last line.
    have hnear : ¬ j < lines.length := fun hlt => hnone lines.length hlt (by omega) title hlast
    obtain rfl : j = lines.length := by omega
    rw [headingAt_length, h] at hhead
    exact (Line.heading.inj hhead)
  · rintro rfl
    exact ⟨lines.length, by omega, headingAt_length.mpr h, fun k hk hk' => by omega⟩

/-- Any other line leaves the section as it is. -/
theorem within_length_of_not_heading (h : ∀ title, Line.read line ≠ .heading title) :
    Within (lines ++ [line]) (lines ++ [line]).length ↔ Within lines lines.length := by
  have hlast : ∀ title, ¬ HeadingAt (lines ++ [line]) lines.length title := fun title hhead =>
    h title (headingAt_length.mp hhead)
  have hold : Within (lines ++ [line]) lines.length ↔ Within lines lines.length :=
    within_concat (Nat.le_refl _)
  refine Iff.trans ?_ hold
  rw [List.length_append, List.length_singleton]
  constructor
  · rintro ⟨j, hj, hhead, hnone⟩
    have hne : j ≠ lines.length := by
      rintro rfl
      exact hlast _ hhead
    exact ⟨j, by omega, hhead, fun k hjk hk => hnone k hjk (by omega)⟩
  · rintro ⟨j, hj, hhead, hnone⟩
    refine ⟨j, by omega, hhead, fun k hjk hk title hkhead => ?_⟩
    rcases Nat.lt_succ_iff_lt_or_eq.mp hk with hlt | rfl
    · exact hnone k hjk hlt title hkhead
    · exact hlast title hkhead

/-- The values given in a file with one more line. -/
theorem givenAt_concat :
    GivenAt (lines ++ [line]) key i value ↔
      GivenAt lines key i value ∨
      (i = lines.length ∧ Within lines lines.length ∧ Line.read line = .entry key value) := by
  unfold GivenAt
  -- Line `i` is an old one, the new one, or none at all.
  rcases Nat.lt_trichotomy i lines.length with hlt | rfl | hgt
  · rw [within_concat (by omega), List.getElem?_append_left hlt]
    exact ⟨.inl, fun h => h.resolve_right fun h' => by omega⟩
  · rw [within_concat (Nat.le_refl _), List.getElem?_concat_length,
      List.getElem?_eq_none (by omega)]
    constructor
    · rintro ⟨hin, line', hline, hread⟩
      cases hline
      exact .inr ⟨rfl, hin, hread⟩
    · rintro (⟨-, line', hline, -⟩ | ⟨-, hin, hread⟩)
      · cases hline
      · exact ⟨hin, line, rfl, hread⟩
  · have hnone : (lines ++ [line])[i]? = none := by
      rw [List.getElem?_eq_none]
      rw [List.length_append, List.length_singleton]
      omega
    rw [hnone, List.getElem?_eq_none (by omega)]
    constructor
    · rintro ⟨-, line', hline, -⟩
      cases hline
    · rintro (⟨-, line', hline, -⟩ | ⟨rfl, -⟩)
      · cases hline
      · omega

/-- A value is given on a line of the file. -/
theorem GivenAt.lt_length (h : GivenAt lines key i value) : i < lines.length := by
  obtain ⟨-, line, hline, -⟩ := h
  exact (List.getElem?_eq_some_iff.mp hline).1

/-! ## §4. What a file leaves for a key. -/

/-- `x` stands for `key`: the last valid value means it, or there is none and it
was there from the start. -/
def Stands {α : Type} (means : List Char → α → Prop) (key : List Char) (start : α)
    (lines : List (List Char)) (x : α) : Prop :=
  LastGiven means key lines x ∨ (NeverGiven means key lines ∧ x = start)

section Stands

variable {α : Type} {means : List Char → α → Prop} {start x y : α}

/-- What is valid stands against nothing valid. -/
theorem LastGiven.not_never (h : LastGiven means key lines x) : ¬ NeverGiven means key lines := by
  obtain ⟨i, value, hgiven, hvalue, -⟩ := h
  exact fun hnever => hnever i value hgiven x hvalue

/-- One thing stands for a key, if what is valid means one thing. -/
theorem Stands.unique (hmeans : ∀ value x y, means value x → means value y → x = y)
    (hx : Stands means key start lines x) (hy : Stands means key start lines y) : x = y := by
  rcases hx with hx | ⟨hnever, rfl⟩ <;> rcases hy with hy | ⟨hnever', rfl⟩
  · exact hx.unique hmeans hy
  · exact absurd hnever' hx.not_never
  · exact absurd hnever hy.not_never
  · rfl

theorem stands_nil : Stands means key start [] start := by
  refine .inr ⟨fun i value h => ?_, rfl⟩
  exact absurd h.lt_length (Nat.not_lt_zero i)

/-- A valid value takes the place of what stood there. -/
theorem stands_concat_of_valid (hin : Within lines lines.length)
    (hread : Line.read line = .entry key value) (hy : means value y) :
    Stands means key start (lines ++ [line]) y := by
  refine .inl ⟨lines.length, value, givenAt_concat.mpr (.inr ⟨rfl, hin, hread⟩), hy, ?_⟩
  intro j later hj hlater
  have hlt := hlater.lt_length
  rw [List.length_append, List.length_singleton] at hlt
  omega

/-- A line that gives the key nothing valid leaves what stood there. -/
theorem Stands.concat (h : Stands means key start lines x)
    (hline : ∀ value, Within lines lines.length → Line.read line = .entry key value →
      ∀ y, ¬ means value y) :
    Stands means key start (lines ++ [line]) x := by
  rcases h with ⟨i, value, hi, hvalue, hlast⟩ | ⟨hnever, rfl⟩
  · refine .inl ⟨i, value, givenAt_concat.mpr (.inl hi), hvalue, fun j later hj hlater => ?_⟩
    rcases givenAt_concat.mp hlater with hold | ⟨-, hin, hread⟩
    · exact hlast j later hj hold
    · exact hline later hin hread
  · refine .inr ⟨fun j later hlater => ?_, rfl⟩
    rcases givenAt_concat.mp hlater with hold | ⟨-, hin, hread⟩
    · exact hnever j later hold
    · exact hline later hin hread

end Stands

/-! ## §5. Reading a file line by line. -/

/-- What has been read so far. -/
structure Reading where
  /-- Whether the section is open. -/
  inside : Bool := false
  settings : Settings := {}

/-- Read one more line. -/
def Reading.next (r : Reading) (line : List Char) : Reading :=
  match Line.read line with
  | .heading title => { r with inside := section? title }
  | .entry key value =>
      { r with settings := if r.inside then r.settings.set key value else r.settings }
  | .idle | .junk => r

theorem readLines_eq_foldl (inside : Bool) (s : Settings) (lines : List (List Char)) :
    readLines inside s lines = (lines.foldl Reading.next ⟨inside, s⟩).settings := by
  induction lines generalizing inside s with
  | nil => rfl
  | cons line lines ih =>
      rw [List.foldl_cons, readLines, Reading.next]
      cases Line.read line with
      | heading title => exact ih _ _
      | entry key value => exact ih _ _
      | idle => exact ih _ _
      | junk => exact ih _ _

/-- What is read from the top of a file. -/
def Reading.of (lines : List (List Char)) : Reading := lines.foldl Reading.next {}

theorem Reading.of_concat : of (lines ++ [line]) = (of lines).next line := by
  rw [of, List.foldl_append]
  rfl

theorem ofFile_eq (content : String) :
    ofFile content = (Reading.of (Text.lines content.toList)).settings :=
  readLines_eq_foldl false {} _

theorem Reading.inside_next_of_heading {r : Reading} (h : Line.read line = .heading title) :
    (r.next line).inside = section? title := by
  unfold next
  rw [h]

theorem Reading.inside_next_of_not_heading {r : Reading}
    (h : ∀ title, Line.read line ≠ .heading title) : (r.next line).inside = r.inside := by
  unfold next
  cases hread : Line.read line with
  | heading title => exact absurd hread (h title)
  | entry key value => rfl
  | idle => rfl
  | junk => rfl

/-- **The section is open where the lines are in it.** -/
theorem Reading.inside_of (lines : List (List Char)) :
    (of lines).inside = true ↔ Within lines lines.length := by
  induction lines using List.reverseRecOn with
  | nil =>
      constructor
      · intro h
        cases h
      · rintro ⟨j, hj, -⟩
        exact absurd hj (Nat.not_lt_zero j)
  | append_singleton lines line ih =>
      rw [of_concat]
      by_cases hhead : ∃ title, Line.read line = .heading title
      · obtain ⟨title, hread⟩ := hhead
        rw [inside_next_of_heading hread, within_length_of_heading hread]
        exact decide_eq_true_iff
      · have hnot : ∀ title, Line.read line ≠ .heading title := fun title h => hhead ⟨title, h⟩
        rw [inside_next_of_not_heading hnot, within_length_of_not_heading hnot]
        exact ih

/-! ## §6. The fields of the settings. -/

/-- A field of the settings, the key that sets it, what its values mean and the
reader of them. -/
structure Field (α : Type) where
  key : List Char
  means : List Char → α → Prop
  read? : List Char → Option α
  get : Settings → α
  read?_eq_some_iff : ∀ {value x}, read? value = some x ↔ means value x
  /-- Its key sets the field to what a valid value means; nothing else sets it. -/
  get_set : ∀ s key' value,
    get (s.set key' value) = if key' = key then (read? value).getD (get s) else get s

/-- The number of tape cells. -/
def memorySizeField : Field Nat where
  key := "memory_size".toList
  means := Text.Numeral
  read? := Text.numeral?
  get := Settings.memorySize
  read?_eq_some_iff := Text.numeral?_eq_some_iff
  get_set := by
    intro s key value
    unfold Settings.set
    split
    next => rfl
    next => split <;> rfl

/-- The limit on nested loops. -/
def maxLoopDepthField : Field (Option Nat) where
  key := "max_loop_depth".toList
  means := DepthText
  read? := depth?
  get := Settings.maxLoopDepth
  read?_eq_some_iff := depth?_eq_some_iff
  get_set := by
    intro s key value
    unfold Settings.set
    split
    next hkey =>
        rw [if_neg (by rw [hkey]; decide)]
    next => split <;> rfl

namespace Field

variable {α : Type} (f : Field α)

/-- A valid value means one thing. -/
theorem means_unique (value : List Char) (x y : α) (hx : f.means value x)
    (hy : f.means value y) : x = y := by
  rw [← f.read?_eq_some_iff] at hx hy
  exact Option.some.inj (hx.symm.trans hy)

variable {f} {r r' : Reading}

/-- A line of the section sets the field of its key. -/
theorem get_next_of_entry (hopen : r.inside = true) (hread : Line.read line = .entry f.key value) :
    f.get (r.next line).settings = (f.read? value).getD (f.get r.settings) := by
  unfold Reading.next
  rw [hread]
  dsimp only
  rw [if_pos hopen, f.get_set, if_pos rfl]

/-- Any other line leaves the field as it is. -/
theorem get_next_of_other (h : r.inside = true → ∀ value, Line.read line ≠ .entry f.key value) :
    f.get (r.next line).settings = f.get r.settings := by
  unfold Reading.next
  cases hread : Line.read line with
  | heading title => rfl
  | idle => rfl
  | junk => rfl
  | entry key value =>
      dsimp only
      split
      next hopen =>
          have hkey : key ≠ f.key := by
            rintro rfl
            exact h hopen value hread
          rw [f.get_set, if_neg hkey]
      next => rfl

variable (f)

/-- **In what has been read so far, what stands for a key stands in its field.** -/
theorem stands_of (lines : List (List Char)) :
    Stands f.means f.key (f.get {}) lines (f.get (Reading.of lines).settings) := by
  induction lines using List.reverseRecOn with
  | nil => exact stands_nil
  | append_singleton lines line ih =>
      rw [Reading.of_concat]
      by_cases hset : (Reading.of lines).inside = true ∧
          ∃ value, Line.read line = .entry f.key value
      · obtain ⟨hopen, value, hread⟩ := hset
        rw [get_next_of_entry hopen hread]
        cases hvalue : f.read? value with
        | some y =>
            have hin := (Reading.inside_of lines).mp hopen
            exact stands_concat_of_valid hin hread (f.read?_eq_some_iff.mp hvalue)
        | none =>
            -- The value is not valid, so what stood there stays.
            refine ih.concat fun value' _ hread' y => ?_
            rw [hread] at hread'
            cases hread'
            rw [← f.read?_eq_some_iff, hvalue]
            intro h
            cases h
      · have hother : (Reading.of lines).inside = true →
            ∀ value, Line.read line ≠ .entry f.key value :=
          fun hopen value hread => hset ⟨hopen, value, hread⟩
        rw [get_next_of_other hother]
        refine ih.concat fun value hin hread => ?_
        exact absurd hread (hother ((Reading.inside_of lines).mpr hin) value)

end Field

/-! ## §7. Lines that have no say. -/

/-- A line has a say about `key`: it is a heading, or an entry for `key`. -/
def concerns (key line : List Char) : Bool :=
  match Line.read line with
  | .heading _ => true
  | .entry key' _ => key' = key
  | .idle | .junk => false

theorem not_heading_of_not_concerns (h : concerns key line = false) (title : List Char) :
    Line.read line ≠ .heading title := by
  intro hread
  rw [concerns, hread] at h
  cases h

theorem not_entry_of_not_concerns (h : concerns key line = false) (value : List Char) :
    Line.read line ≠ .entry key value := by
  intro hread
  rw [concerns, hread] at h
  exact absurd rfl (of_decide_eq_false h)

namespace Field

variable {α : Type} (f : Field α) {r r' : Reading}

/-- Two readings agree about a field. -/
def Agree (r r' : Reading) : Prop :=
  r.inside = r'.inside ∧ f.get r.settings = f.get r'.settings

theorem agree_next (h : f.Agree r r') (line : List Char) :
    f.Agree (r.next line) (r'.next line) := by
  obtain ⟨hinside, hget⟩ := h
  constructor
  · by_cases hhead : ∃ title, Line.read line = .heading title
    · obtain ⟨title, hread⟩ := hhead
      rw [Reading.inside_next_of_heading hread, Reading.inside_next_of_heading hread]
    · have hnot : ∀ title, Line.read line ≠ .heading title := fun title h => hhead ⟨title, h⟩
      rw [Reading.inside_next_of_not_heading hnot, Reading.inside_next_of_not_heading hnot, hinside]
  · by_cases hset : r.inside = true ∧ ∃ value, Line.read line = .entry f.key value
    · obtain ⟨hopen, value, hread⟩ := hset
      rw [get_next_of_entry hopen hread, get_next_of_entry (hinside ▸ hopen) hread, hget]
    · have hother : r.inside = true → ∀ value, Line.read line ≠ .entry f.key value :=
        fun hopen value hread => hset ⟨hopen, value, hread⟩
      rw [get_next_of_other hother, get_next_of_other (hinside ▸ hother), hget]

theorem agree_next_self (h : concerns f.key line = false) : f.Agree (r.next line) r :=
  ⟨Reading.inside_next_of_not_heading (not_heading_of_not_concerns h),
    get_next_of_other fun _ => not_entry_of_not_concerns h⟩

/-- Leaving out lines that have no say changes nothing about a field. -/
theorem agree_filter (h : f.Agree r r') (lines : List (List Char)) :
    f.Agree (lines.foldl Reading.next r)
      ((lines.filter (concerns f.key)).foldl Reading.next r') := by
  induction lines generalizing r r' with
  | nil => exact h
  | cons line lines ih =>
      cases hline : concerns f.key line with
      | true =>
          rw [List.filter_cons_of_pos hline]
          exact ih (f.agree_next h line)
      | false =>
          -- Only one of the two reads the line, and it stays where it was.
          rw [List.filter_cons_of_neg (by rw [hline]; exact Bool.false_ne_true)]
          have hself : f.Agree (r.next line) r := f.agree_next_self hline
          exact ih ⟨hself.1.trans h.1, hself.2.trans h.2⟩

/-- **Only headings and entries for its key have a say about a field.** -/
theorem get_of_filter (lines : List (List Char)) :
    f.get (Reading.of lines).settings
      = f.get (Reading.of (lines.filter (concerns f.key))).settings :=
  (f.agree_filter ⟨rfl, rfl⟩ lines).2

end Field

end Prairie.Settings
