/-
  Prairie.Proofs.CommandLine.Listing
  ──────────────────────────────────
  **A LISTING TELLS THE PROGRAM.**

  A listing is read from left to right and from line to line:

      ␣␣␣0  ␣␣␣␣3..16␣␣␣  Comment "h\u{e9}\n"
      │     │     │       │
      index start stop    kind, and the text of a comment

  The columns are numerals among blanks, kinds are spelled with letters, and
  the text of a comment is quoted, so each part tells what it is and where it
  ends (`legible_line`).  No part holds a line feed but the one at the end, so
  the lines are those of the tokens (`lines_render`).  A listing therefore
  tells every lexeme of the program, the spans included (`render_inj`), and a
  program is nothing else.
-/
import Prairie.CommandLine.Respond
import Prairie.Proofs.Text.Quoted

namespace Prairie

open Text (Legible Stops)

/-! ## §1. How a token is described. -/

namespace Token

theorem toList_describe_comment (text : String) : (comment text).describe.toList
    = "Comment".toList ++ ([' '] ++ (Text.quote text).toList) := by
  have hblank : "Comment ".toList = "Comment".toList ++ [' '] := by decide
  rw [describe, String.toList_append, hblank, List.append_assoc]

/-- A description begins with the kind, and no letter follows it. -/
theorem describe_append (t : Token) (x : List Char) : ∃ rest,
    t.describe.toList ++ '\n' :: x = t.kindName.toList ++ rest ∧ Stops Char.isAlpha rest := by
  cases t with
  | comment text =>
      refine ⟨' ' :: ((Text.quote text).toList ++ '\n' :: x), ?_,
        Text.stops_cons.mpr (by decide)⟩
      rw [toList_describe_comment, List.append_assoc, List.append_assoc, List.singleton_append,
        kindName]
  | literal l => exact ⟨'\n' :: x, rfl, Text.stops_cons.mpr (by decide)⟩

/-- **A description tells the token.**  The kind tells which literal it is, or
that a quoted text follows. -/
theorem legible_describe :
    Legible (fun t : Token => t.describe.toList) fun z => ∃ w, z = '\n' :: w := by
  rintro t u _ _ ⟨x, rfl⟩ ⟨y, rfl⟩ h
  obtain ⟨rest, ht, hrest⟩ := t.describe_append x
  obtain ⟨rest', hu, hrest'⟩ := u.describe_append y
  have hrow : t.describe.toList ++ '\n' :: x = u.describe.toList ++ '\n' :: y := h
  rw [ht, hu] at h
  have hkind : t.kindName = u.kindName := by
    refine String.toList_inj.mp (Text.append_inj_of_stops ?_ ?_ hrest hrest' h).1
    · exact fun c hc => isAlpha_of_mem_kindName hc
    · exact fun c hc => isAlpha_of_mem_kindName hc
  cases t with
  | comment text =>
      cases u with
      | comment text' =>
          simp only [toList_describe_comment, List.append_assoc, List.append_cancel_left_eq]
            at hrow
          obtain ⟨rfl, hxy⟩ := Text.legible_quote _ _ _ _ trivial trivial hrow
          exact ⟨rfl, hxy⟩
      | literal l => exact absurd hkind (kindName_ne text l)
  | literal l =>
      cases u with
      | comment text => exact absurd hkind.symm (kindName_ne text l)
      | literal l' =>
          obtain rfl := Literal.name_inj hkind
          exact ⟨rfl, List.append_cancel_left hrow⟩

/-- **A description holds no line feed.** -/
theorem not_mem_describe (t : Token) : '\n' ∉ t.describe.toList := by
  cases t with
  | comment text =>
      have hkind : '\n' ∉ "Comment".toList ++ [' '] := by decide
      rw [toList_describe_comment, ← List.append_assoc, List.mem_append, not_or]
      exact ⟨hkind, Text.not_mem_quote text⟩
  | literal l =>
      have key : ∀ l ∈ Literal.all, '\n' ∉ l.name.toList := by decide
      exact key l l.mem_all

/-- A description begins with a letter, so with neither a blank nor a digit. -/
theorem exists_head_describe (t : Token) :
    ∃ c cs, t.describe.toList = c :: cs ∧ ¬ (c = ' ' ∨ c.isDigit = true) := by
  cases t with
  | comment text =>
      rw [toList_describe_comment]
      exact ⟨'C', _, rfl, by decide⟩
  | literal l =>
      have key : ∀ l ∈ Literal.all,
          ∃ c cs, l.name.toList = c :: cs ∧ ¬ (c = ' ' ∨ c.isDigit = true) := by
        simp [Literal.all, Literal.name]
      exact key l l.mem_all

end Token

namespace CommandLine

namespace Listing

variable {p q : Program} {i : Nat} {x : Lexeme}

/-! ## §2. The line of a lexeme. -/

/-- The part of a line between the index and the token. -/
def place : Option Span → List Char
  | none => []
  | some span => (Text.flushRight 5 (toString span.start)).toList ++ ('.' :: '.' ::
      ((Text.flushLeft 5 (toString span.stop)).toList ++ [' ', ' ']))

/-- A line, without the line feed that ends it. -/
def row (i : Nat) (x : Lexeme) : List Char :=
  (Text.flushRight 4 (toString i)).toList
    ++ (' ' :: ' ' :: (place x.span ++ x.token.describe.toList))

/-- A row ends in the description of the token. -/
theorem describe_suffix_row (i : Nat) (x : Lexeme) : x.token.describe.toList <:+ row i x := by
  refine ⟨(Text.flushRight 4 (toString i)).toList ++ (' ' :: ' ' :: place x.span), ?_⟩
  rw [row, List.append_assoc, List.cons_append, List.cons_append]

theorem toList_line (i : Nat) (x : Lexeme) : (line i x).toList = row i x ++ ['\n'] := by
  have hblanks : "  ".toList = [' ', ' '] := by decide
  have hdots : "..".toList = ['.', '.'] := by decide
  have hfeed : "\n".toList = ['\n'] := by decide
  obtain ⟨t, _ | span⟩ := x
  · show (Text.flushRight 4 (toString i) ++ "  " ++ t.describe ++ "\n").toList = _
    simp only [row, place, String.toList_append, hblanks, hfeed, List.append_assoc,
      List.cons_append, List.nil_append]
  · show (Text.flushRight 4 (toString i) ++ "  " ++ Text.flushRight 5 (toString span.start) ++ ".."
      ++ Text.flushLeft 5 (toString span.stop) ++ "  " ++ t.describe ++ "\n").toList = _
    simp only [row, place, String.toList_append, hblanks, hdots, hfeed, List.append_assoc,
      List.cons_append, List.nil_append]

/-- A known place does not begin as a token does. -/
theorem place_append_ne (span : Span) (t : Token) (x y : List Char) :
    place (some span) ++ x ≠ t.describe.toList ++ y := by
  intro h
  obtain ⟨c, cs, hcs, hc⟩ := t.exists_head_describe
  rw [place, hcs, List.append_assoc] at h
  cases hcolumn : (Text.flushRight 5 (toString span.start)).toList with
  | nil =>
      obtain ⟨d, ds, hds, -⟩ := Text.exists_digit_toString span.start
      rw [Text.toList_flushRight, hds] at hcolumn
      exact List.append_ne_nil_of_right_ne_nil _ (List.cons_ne_nil d ds) hcolumn
  | cons d ds =>
      rw [hcolumn] at h
      obtain rfl : d = c := (List.cons.inj h).1
      exact hc (Text.blank_or_digit_of_mem_flushRight (by rw [hcolumn]; exact List.mem_cons_self))

/-- **A place tells the span**, or that it is not known. -/
theorem legible_place : Legible place fun z => ∃ (t : Token) (w : List Char),
    z = t.describe.toList ++ '\n' :: w := by
  rintro s s' _ _ ⟨t, x, rfl⟩ ⟨u, y, rfl⟩ h
  cases s with
  | none =>
      cases s' with
      | none => exact ⟨rfl, h⟩
      | some span' =>
          exact absurd h.symm (place_append_ne span' t _ _)
  | some span =>
      cases s' with
      | none =>
          exact absurd h (place_append_ne span u _ _)
      | some span' =>
          obtain ⟨start, stop⟩ := span
          obtain ⟨start', stop'⟩ := span'
          simp only [place, List.append_assoc, List.cons_append, List.nil_append] at h
          obtain ⟨rfl, hdots⟩ := Text.legible_flushRight 5 start start' _ _
            (Text.stops_cons.mpr (by decide)) (Text.stops_cons.mpr (by decide)) h
          have hstop := (List.cons.inj (List.cons.inj hdots).2).2
          obtain ⟨rfl, hblanks⟩ := Text.legible_flushLeft 5 stop stop' _ _
            (Text.stops_cons.mpr (by decide)) (Text.stops_cons.mpr (by decide)) hstop
          exact ⟨rfl, (List.cons.inj (List.cons.inj hblanks).2).2⟩

/-- **A line tells its index and its lexeme**, whatever follows. -/
theorem legible_line : Legible (fun e : Lexeme × Nat => (line e.2 e.1).toList) fun _ => True := by
  rintro ⟨⟨t, s⟩, i⟩ ⟨⟨u, s'⟩, j⟩ x y - - h
  simp only [toList_line, row, List.append_assoc, List.cons_append, List.nil_append] at h
  obtain ⟨rfl, hblanks⟩ := Text.legible_flushRight 4 i j _ _ (Text.stops_cons.mpr (by decide))
    (Text.stops_cons.mpr (by decide)) h
  have hplace := (List.cons.inj (List.cons.inj hblanks).2).2
  obtain ⟨rfl, htoken⟩ := legible_place s s' _ _ ⟨t, x, rfl⟩ ⟨u, y, rfl⟩ hplace
  obtain ⟨rfl, hfeed⟩ := Token.legible_describe t u _ _ ⟨x, rfl⟩ ⟨y, rfl⟩ htoken
  exact ⟨rfl, (List.cons.inj hfeed).2⟩

theorem not_mem_place (s : Option Span) : '\n' ∉ place s := by
  cases s with
  | none => exact List.not_mem_nil
  | some span =>
      intro hmem
      rcases List.mem_append.mp hmem with hmem | hmem
      · exact absurd (Text.blank_or_digit_of_mem_flushRight hmem) (by decide)
      · simp only [List.mem_cons, List.mem_append, List.not_mem_nil, Char.reduceEq, false_or,
          or_false] at hmem
        exact absurd (Text.blank_or_digit_of_mem_flushLeft hmem) (by decide)

/-- **A row holds no line feed.** -/
theorem not_mem_row (i : Nat) (x : Lexeme) : '\n' ∉ row i x := by
  intro hmem
  rcases List.mem_append.mp hmem with hmem | hmem
  · exact absurd (Text.blank_or_digit_of_mem_flushRight hmem) (by decide)
  · simp only [List.mem_cons, List.mem_append, Char.reduceEq, false_or] at hmem
    rcases hmem with hmem | hmem
    · exact not_mem_place _ hmem
    · exact x.token.not_mem_describe hmem

/-! ## §3. The listing of a program. -/

/-- The rows of a program, one for each lexeme. -/
def rows (p : Program) : List (List Char) := p.lexemes.toList.zipIdx.map fun (x, i) => row i x

theorem length_rows (p : Program) : (rows p).length = p.size := by
  rw [rows, List.length_map, List.length_zipIdx]
  rfl

theorem toList_render (p : Program) : (render p).toList = (rows p).flatMap (· ++ ['\n']) := by
  rw [render, String.toList_join, List.flatMap_map, rows, List.flatMap_map]
  exact congrArg (List.flatMap · _) (funext fun e => toList_line e.2 e.1)

theorem not_mem_rows {r : List Char} (hr : r ∈ rows p) : '\n' ∉ r := by
  obtain ⟨⟨x, i⟩, -, rfl⟩ := List.mem_map.mp hr
  exact not_mem_row i x

/-- **The lines of a listing are the lines of the lexemes.** -/
theorem lines_render (p : Program) :
    Text.lines (render p).toList = (rows p).map (· ++ ['\n']) := by
  rw [toList_render, Text.lines_flatMap fun r hr => not_mem_rows hr]

/-- **There is one line feed for each token.** -/
theorem count_render (p : Program) : (render p).toList.count '\n' = p.size := by
  rw [toList_render, Text.count_flatMap_rows fun r hr => not_mem_rows hr, length_rows]

theorem getElem?_rows (h : p.lexemes[i]? = some x) : (rows p)[i]? = some (row i x) := by
  rw [rows, List.getElem?_map, List.getElem?_zipIdx, Array.getElem?_toList, h]
  simp

/-- **A listing tells the program**, with the spans as far as they are known. -/
theorem render_inj (h : render p = render q) : p = q := by
  have hlegible : Legible
      (fun es : List (Lexeme × Nat) => es.flatMap fun e => (line e.2 e.1).toList)
      fun z => z = [] := by
    refine legible_line.flatMap (fun _ _ => trivial) (fun _ _ => trivial) ?_
    rintro ⟨x, i⟩ z hnil
    rw [toList_line] at hnil
    simp at hnil
  have hlist := congrArg String.toList h
  simp only [render, String.toList_join, List.flatMap_map] at hlist
  have hentries := (hlegible p.lexemes.toList.zipIdx q.lexemes.toList.zipIdx [] [] rfl rfl
    (congrArg (· ++ []) hlist)).1
  have hlexemes := congrArg (List.map Prod.fst) hentries
  rw [List.zipIdx_map_fst, List.zipIdx_map_fst] at hlexemes
  obtain ⟨xs⟩ := p
  obtain ⟨ys⟩ := q
  exact congrArg Program.mk (Array.toList_inj.mp hlexemes)

end Listing

/-! ## §4. The response to the command. -/

/-- Where a reference finds which source: in its parts, or in the file that it
names. -/
def SourceRef.Finds (ref : SourceRef) (files : Files) (source : String) : Prop :=
  (ref.file = none ∧ ref.parts ≠ [] ∧ source = " ".intercalate ref.parts) ∨
    ∃ path, ref.file = some path ∧ ref.parts = [] ∧ files.readText path = .ok source

/-- Every source can be given as a single part. -/
theorem SourceRef.finds_part (files : Files) (source : String) :
    SourceRef.Finds { parts := [source] } files source := by
  refine .inl ⟨rfl, List.cons_ne_nil _ _, ?_⟩
  rw [String.intercalate_singleton]

variable {s : Surroundings} {ref : SourceRef} {source : String}

/-- A source that is found is gone on with. -/
theorem withSource_of_finds (h : ref.Finds s.files source) (name : String) (topic : Topic)
    (next : String → Response) : withSource name topic ref s.files next = next source := by
  obtain ⟨file, parts⟩ := ref
  rcases h with ⟨hfile, hparts, hsource⟩ | ⟨path, hfile, hparts, hsource⟩
  · cases hfile
    cases parts with
    | nil => exact absurd rfl hparts
    | cons part parts => rw [hsource]; rfl
  · cases hfile
    cases hparts
    simp only [withSource, hsource]

theorem respond_tokens (h : ref.Finds s.files source) (name : String) :
    respond name s (.tokens ref) = .say (Listing.render (.ofSource source)) :=
  withSource_of_finds h name .tokens fun text => .say (Listing.render (.ofSource text))

end CommandLine

open CommandLine in
/-- **A LISTING TELLS THE PROGRAM.**  For every source, given in parts or found
in a file: the command writes a listing to the output and nothing else.  The
listing holds one line feed for each token and one line for each token, which
ends in the description of the token and the only line feed of the line.  Where
the outputs for two sources are the same, the programs have the same tokens,
the texts of the comments included, and the same spans.  Tokens that are
described in the same way are the same. -/
theorem listing_tells_program {s : Surroundings} {ref : SourceRef} {source : String}
    (h : ref.Finds s.files source) (name : String) :
    (∃ listing : String, respond name s (.tokens ref) = .say listing ∧
      listing.toList.count '\n' = (Program.ofSource source).size ∧
      (Text.lines listing.toList).length = (Program.ofSource source).size ∧
      ∀ i x, (Program.ofSource source).lexemes[i]? = some x →
        (Text.lines listing.toList)[i]? = some (Listing.line i x).toList ∧
        ∃ row, (Listing.line i x).toList = row ++ ['\n'] ∧ '\n' ∉ row ∧
          x.token.describe.toList <:+ row) ∧
    (∀ name' s' ref' source', SourceRef.Finds ref' s'.files source' →
      (respond name' s' (.tokens ref')).output = (respond name s (.tokens ref)).output →
      (Program.ofSource source').tokens = (Program.ofSource source).tokens ∧
      ∀ i, (Program.ofSource source').span? i = (Program.ofSource source).span? i) ∧
    ∀ t u : Token, t.describe = u.describe → t = u := by
  refine ⟨⟨Listing.render (.ofSource source), respond_tokens h name, Listing.count_render _, ?_,
    fun i x hx => ?_⟩, fun name' s' ref' source' h' houtput => ?_, fun t u hsame => ?_⟩
  · rw [Listing.lines_render, List.length_map, Listing.length_rows]
  · refine ⟨?_, Listing.row i x, Listing.toList_line i x, Listing.not_mem_row i x,
      Listing.describe_suffix_row i x⟩
    rw [Listing.lines_render, List.getElem?_map, Listing.getElem?_rows hx, Listing.toList_line]
    rfl
  · rw [respond_tokens h, respond_tokens h'] at houtput
    have hlisting : Listing.render (.ofSource source') = Listing.render (.ofSource source) := by
      simp only [Response.say, String.toUTF8_eq_toByteArray, String.toByteArray_inj] at houtput
      exact houtput
    rw [Listing.render_inj hlisting]
    exact ⟨rfl, fun _ => rfl⟩
  · have hrow : t.describe.toList ++ ['\n'] = u.describe.toList ++ ['\n'] := by rw [hsame]
    exact (Token.legible_describe t u _ _ ⟨[], rfl⟩ ⟨[], rfl⟩ hrow).1

/-- An accent by itself, a quote and a line feed in a comment. -/
def accented : String := "\u0301 \"\n ("

/-- The same with the escape of the accent spelled out. -/
def spelledOut : String := "\\u\x7b301\x7d \"\n ("

/-- Nothing is found around the command. -/
def nothingAround : CommandLine.Surroundings where
  environment := fun _ => none
  files := fun _ => .error .missing

open CommandLine in
theorem listing_tells_program_accented :
    (∃ listing, respond "buffalo" nothingAround (.tokens { parts := [accented] }) = .say listing ∧
      listing.toList.count '\n' = 2) ∧
    (respond "buffalo" nothingAround (.tokens { parts := [spelledOut] })).output
      ≠ (respond "buffalo" nothingAround (.tokens { parts := [accented] })).output := by
  obtain ⟨⟨listing, hsay, hfeeds, -⟩, htells, -⟩ :=
    listing_tells_program (SourceRef.finds_part nothingAround.files accented) "buffalo"
  have hsize : (Program.ofSource accented).size = 2 := by decide +kernel
  refine ⟨⟨listing, hsay, hfeeds.trans hsize⟩, fun hsame => ?_⟩
  have htokens := (htells "buffalo" nothingAround _ _ (SourceRef.finds_part _ spelledOut) hsame).1
  exact absurd htokens (by decide +kernel)

end Prairie
