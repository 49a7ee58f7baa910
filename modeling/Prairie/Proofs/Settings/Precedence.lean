/-
  Prairie.Proofs.Settings.Precedence
  ──────────────────────────────────
  **THE FIRST PLACE WITH A VALID VALUE DECIDES.**

  Each setting has its own places, in a fixed order, and a default:

      tape cells     flag, variable, settings file     256
      loops          flag, variable, settings file     2500
      milliseconds   flag, variable                    2000
      steps          flag, variable                    no limit

  A place is known by what it says, and it says something only if what stands
  there is valid.  So an invalid value is as good as none: it hides no place
  behind it.  As a setting has no places but its own, nothing that stands
  anywhere else can reach it.
-/
import Prairie.Proofs.Settings.Section
import Prairie.Settings.Resolve

namespace Prairie

/-! ## §1. Places in order. -/

/-- What is decided by places, each of which may say something: the first one
that does decides, and if none does it is the default. -/
inductive Decided {α : Type} (default : α) : List (α → Prop) → α → Prop where
  | nobody : Decided default [] default
  /-- The first place says something. -/
  | first {place : α → Prop} {places : List (α → Prop)} {x : α} (h : place x) :
      Decided default (place :: places) x
  /-- The first place says nothing at all, and the others decide. -/
  | others {place : α → Prop} {places : List (α → Prop)} {x : α} (hnone : ∀ y, ¬ place y)
      (h : Decided default places x) : Decided default (place :: places) x

namespace Decided

variable {α : Type} {default x v : α} {place : α → Prop} {places : List (α → Prop)}

theorem nil_iff : Decided default [] x ↔ default = x := by
  constructor
  · rintro ⟨⟩
    rfl
  · rintro rfl
    exact .nobody

/-- A place that can be read is asked before the others. -/
theorem cons_iff {read? : Option α} (hread : ∀ y, read? = some y ↔ place y)
    (hplaces : ∀ y, Decided default places y ↔ v = y) :
    Decided default (place :: places) x ↔ read?.getD v = x := by
  cases hvalue : read? with
  | none =>
      have hnone : ∀ y, ¬ place y := by
        intro y hy
        rw [← hread, hvalue] at hy
        cases hy
      constructor
      · intro h
        cases h with
        | first h => exact absurd h (hnone x)
        | others _ h => exact (hplaces x).mp h
      · intro h
        exact .others hnone ((hplaces x).mpr h)
  | some y =>
      have hy : place y := (hread y).mp hvalue
      constructor
      · intro h
        cases h with
        | first h =>
            rw [← hread, hvalue] at h
            exact Option.some.inj h
        | others hnone _ => exact absurd hy (hnone y)
      · rintro rfl
        exact .first hy

/-- What is decided is the default, or told in one of the places. -/
theorem default_or_told (h : Decided default places x) :
    x = default ∨ ∃ place ∈ places, place x := by
  induction h with
  | nobody => exact .inl rfl
  | first h => exact .inr ⟨_, List.mem_cons_self, h⟩
  | others _ _ ih =>
      rcases ih with rfl | ⟨place, hmem, hplace⟩
      · exact .inl rfl
      · exact .inr ⟨place, List.mem_cons_of_mem _ hmem, hplace⟩

end Decided

/-! ## §2. What the places say. -/

/-- A variable holds a text that means `x`. -/
def Environment.Tells {α : Type} (env : Environment) (name : String)
    (means : List Char → α → Prop) (x : α) : Prop :=
  ∃ text, env name = some text ∧ means text.toList x

namespace Settings

/-- The settings file can be read, and the last valid value given to `key` in
its section means `x`. -/
def FileTells {α : Type} (file : Option String) (means : List Char → α → Prop)
    (key : List Char) (x : α) : Prop :=
  ∃ content, file = some content ∧ LastGiven means key (Text.lines content.toList) x

/-- The lines of the settings file that have a say about a key. -/
def fileLines (key : List Char) : Option String → List (List Char)
  | none => []
  | some content => (Text.lines content.toList).filter (concerns key)

/-- What the settings file makes of a field. -/
def Field.fromFile {α : Type} (f : Field α) (file : Option String) : α :=
  f.get ((file.map Settings.ofFile).getD {})

namespace Field

variable {α : Type} (f : Field α) {file : Option String}

theorem fromFile_some (content : String) :
    f.fromFile (some content) = f.get (Reading.of (Text.lines content.toList)).settings := by
  unfold fromFile
  rw [Option.map_some, Option.getD_some, ofFile_eq]

/-- Only lines that have a say about its key make a field what it is. -/
theorem fromFile_eq_fileLines (file : Option String) :
    f.fromFile file = f.get (Reading.of (fileLines f.key file)).settings := by
  cases file with
  | none => rfl
  | some content => rw [fromFile_some, f.get_of_filter, fileLines]

/-- A file that can be read decides by its last valid value. -/
theorem decided_content (content : String) (x : α) :
    Decided (f.get {}) [FileTells (some content) f.means f.key] x ↔
      Stands f.means f.key (f.get {}) (Text.lines content.toList) x := by
  constructor
  · intro h
    cases h with
    | first h =>
        obtain ⟨content', hcontent, hlast⟩ := h
        cases hcontent
        exact .inl hlast
    | others hnone h =>
        rcases f.stands_of (Text.lines content.toList) with hlast | ⟨hnever, -⟩
        · exact absurd ⟨content, rfl, hlast⟩ (hnone _)
        · exact .inr ⟨hnever, (Decided.nil_iff.mp h).symm⟩
  · rintro (hlast | ⟨hnever, hdefault⟩)
    · exact .first ⟨content, rfl, hlast⟩
    · refine .others ?_ (Decided.nil_iff.mpr hdefault.symm)
      rintro y ⟨content', hcontent, i, value, hgiven, hvalue, -⟩
      cases hcontent
      exact hnever i value hgiven y hvalue

/-- Two files whose lines for its key are the same make the same of a field. -/
theorem fromFile_congr {file' : Option String} (h : fileLines f.key file' = fileLines f.key file) :
    f.fromFile file' = f.fromFile file := by
  rw [fromFile_eq_fileLines, h, ← fromFile_eq_fileLines]

/-- **The last valid value in the file decides, behind which is the default.** -/
theorem decided_file (file : Option String) (x : α) :
    Decided (f.get {}) [FileTells file f.means f.key] x ↔ f.fromFile file = x := by
  cases file with
  | none =>
      show _ ↔ (none : Option α).getD (f.get {}) = x
      refine Decided.cons_iff (fun y => ?_) fun _ => Decided.nil_iff
      constructor
      · intro h
        cases h
      · rintro ⟨content, hcontent, -⟩
        cases hcontent
  | some content =>
      have hstands := f.stands_of (Text.lines content.toList)
      rw [fromFile_some, decided_content]
      constructor
      · intro h
        exact hstands.unique f.means_unique h
      · rintro rfl
        exact hstands

end Field

end Settings

open Settings (LimitOf DepthText FileTells fileLines memorySizeField maxLoopDepthField)

/-- The places that are asked for the number of tape cells, in their order. -/
def memorySizePlaces (flags : Flags) (env : Environment) (file : Option String) :
    List (Nat → Prop) :=
  [fun n => flags.memorySize = some n,
   env.Tells "BUFFALO_MEMORY_SIZE" fun text n => Text.Numeral (Text.trim text) n,
   FileTells file Text.Numeral "memory_size".toList]

/-- The places that are asked for the limit on nested loops, in their order. -/
def maxLoopDepthPlaces (flags : Flags) (env : Environment) (file : Option String) :
    List (Option Nat → Prop) :=
  [fun d => ∃ n, flags.maxLoopDepth = some n ∧ LimitOf n d,
   env.Tells "BUFFALO_MAX_LOOP_DEPTH" DepthText,
   FileTells file DepthText "max_loop_depth".toList]

/-- The places that are asked for the time a run may take, in their order. -/
def timeoutPlaces (flags : Flags) (env : Environment) : List (Nat → Prop) :=
  [fun n => flags.timeoutMs = some n,
   env.Tells "BUFFALO_TIMEOUT_MS" fun text n => Text.Numeral (Text.trim text) n]

/-- The places that are asked for the limit on steps, in their order. -/
def maxStepsPlaces (flags : Flags) (env : Environment) : List (Option Nat → Prop) :=
  [fun limit => ∃ n, flags.maxSteps = some n ∧ limit = some n,
   env.Tells "BUFFALO_MAX_STEPS" fun text limit =>
     ∃ n, Text.Numeral (Text.trim text) n ∧ limit = some n]

/-! ## §3. Reading the places. -/

variable {flags : Flags} {env : Environment} {file : Option String}

theorem Environment.numeral?_eq_some_iff {name : String} {n : Nat} :
    env.numeral? name = some n ↔
      env.Tells name (fun text n => Text.Numeral (Text.trim text) n) n := by
  unfold Environment.numeral? Environment.Tells
  simp only [Option.bind_eq_some_iff, Text.numeral?_eq_some_iff]

theorem Environment.depth?_eq_some_iff {name : String} {d : Option Nat} :
    ((env name).bind fun value => Settings.depth? value.toList) = some d ↔
      env.Tells name DepthText d := by
  unfold Environment.Tells
  simp only [Option.bind_eq_some_iff, Settings.depth?_eq_some_iff]

theorem Settings.resolve_memorySize :
    (resolve flags env file).memorySize
      = flags.memorySize.getD
          ((env.numeral? "BUFFALO_MEMORY_SIZE").getD (memorySizeField.fromFile file)) := by
  unfold resolve
  cases flags.memorySize <;> rfl

theorem Settings.resolve_maxLoopDepth :
    (resolve flags env file).maxLoopDepth
      = (flags.maxLoopDepth.map depthOf).getD
          (((env "BUFFALO_MAX_LOOP_DEPTH").bind fun value => depth? value.toList).getD
            (maxLoopDepthField.fromFile file)) := by
  unfold resolve
  cases flags.maxLoopDepth <;> rfl

theorem Limits.resolve_timeoutMs :
    (resolve flags env).timeoutMs
      = flags.timeoutMs.getD ((env.numeral? "BUFFALO_TIMEOUT_MS").getD 2000) := by
  unfold resolve
  cases flags.timeoutMs <;> rfl

theorem Limits.resolve_maxSteps :
    (resolve flags env).maxSteps
      = (flags.maxSteps.map some).getD
          (((env.numeral? "BUFFALO_MAX_STEPS").map some).getD none) := by
  unfold resolve
  cases flags.maxSteps <;> cases env.numeral? "BUFFALO_MAX_STEPS" <;> rfl

theorem decided_memorySize (n : Nat) :
    Decided 256 (memorySizePlaces flags env file) n ↔
      (Settings.resolve flags env file).memorySize = n := by
  rw [Settings.resolve_memorySize]
  refine Decided.cons_iff (fun _ => Iff.rfl) fun _ => ?_
  refine Decided.cons_iff (fun _ => Environment.numeral?_eq_some_iff) fun _ => ?_
  exact memorySizeField.decided_file file _

theorem decided_maxLoopDepth (d : Option Nat) :
    Decided (some 2500) (maxLoopDepthPlaces flags env file) d ↔
      (Settings.resolve flags env file).maxLoopDepth = d := by
  rw [Settings.resolve_maxLoopDepth]
  refine Decided.cons_iff (fun d => ?_) fun _ => ?_
  · simp only [Option.map_eq_some_iff, Settings.limitOf_iff]
  refine Decided.cons_iff (fun _ => Environment.depth?_eq_some_iff) fun _ => ?_
  exact maxLoopDepthField.decided_file file _

theorem decided_timeoutMs (n : Nat) :
    Decided 2000 (timeoutPlaces flags env) n ↔ (Limits.resolve flags env).timeoutMs = n := by
  rw [Limits.resolve_timeoutMs]
  refine Decided.cons_iff (fun _ => Iff.rfl) fun _ => ?_
  exact Decided.cons_iff (fun _ => Environment.numeral?_eq_some_iff) fun _ => Decided.nil_iff

theorem decided_maxSteps (limit : Option Nat) :
    Decided none (maxStepsPlaces flags env) limit ↔
      (Limits.resolve flags env).maxSteps = limit := by
  rw [Limits.resolve_maxSteps]
  refine Decided.cons_iff (fun limit => ?_) fun _ => ?_
  · simp only [Option.map_eq_some_iff, eq_comm]
  refine Decided.cons_iff (fun limit => ?_) fun _ => Decided.nil_iff
  unfold Environment.Tells
  simp only [Option.map_eq_some_iff, Environment.numeral?_eq_some_iff, Environment.Tells]
  constructor
  · rintro ⟨n, ⟨text, htext, hn⟩, rfl⟩
    exact ⟨text, htext, n, hn, rfl⟩
  · rintro ⟨text, htext, n, hn, rfl⟩
    exact ⟨n, ⟨text, htext, hn⟩, rfl⟩

/-! ## §4. All settings. -/

/-- **THE FIRST PLACE WITH A VALID VALUE DECIDES**, for each setting among its
own places; whatever the file, the variables and the flags are.  No limit on
nested loops is ever zero, and a setting stays what it is whatever becomes of
anything but its own flag, its own variable and the lines of the file that have
a say about it. -/
theorem settings_by_precedence (flags : Flags) (env : Environment) (file : Option String) :
    (∀ n, Decided 256 (memorySizePlaces flags env file) n ↔
      (Settings.resolve flags env file).memorySize = n) ∧
    (∀ d, Decided (some 2500) (maxLoopDepthPlaces flags env file) d ↔
      (Settings.resolve flags env file).maxLoopDepth = d) ∧
    (∀ n, Decided 2000 (timeoutPlaces flags env) n ↔ (Limits.resolve flags env).timeoutMs = n) ∧
    (∀ limit, Decided none (maxStepsPlaces flags env) limit ↔
      (Limits.resolve flags env).maxSteps = limit) ∧
    (Settings.resolve flags env file).maxLoopDepth ≠ some 0 ∧
    ∀ (flags' : Flags) (env' : Environment) (file' : Option String),
      (flags'.memorySize = flags.memorySize →
        env' "BUFFALO_MEMORY_SIZE" = env "BUFFALO_MEMORY_SIZE" →
        fileLines "memory_size".toList file' = fileLines "memory_size".toList file →
        (Settings.resolve flags' env' file').memorySize
          = (Settings.resolve flags env file).memorySize) ∧
      (flags'.maxLoopDepth = flags.maxLoopDepth →
        env' "BUFFALO_MAX_LOOP_DEPTH" = env "BUFFALO_MAX_LOOP_DEPTH" →
        fileLines "max_loop_depth".toList file' = fileLines "max_loop_depth".toList file →
        (Settings.resolve flags' env' file').maxLoopDepth
          = (Settings.resolve flags env file).maxLoopDepth) ∧
      (flags'.timeoutMs = flags.timeoutMs →
        env' "BUFFALO_TIMEOUT_MS" = env "BUFFALO_TIMEOUT_MS" →
        (Limits.resolve flags' env').timeoutMs = (Limits.resolve flags env).timeoutMs) ∧
      (flags'.maxSteps = flags.maxSteps →
        env' "BUFFALO_MAX_STEPS" = env "BUFFALO_MAX_STEPS" →
        (Limits.resolve flags' env').maxSteps = (Limits.resolve flags env).maxSteps) := by
  refine ⟨decided_memorySize, decided_maxLoopDepth, decided_timeoutMs, decided_maxSteps,
    ?_, fun flags' env' file' => ⟨?_, ?_, ?_, ?_⟩⟩
  · have hdecided : Decided (some 2500) (maxLoopDepthPlaces flags env file)
        (Settings.resolve flags env file).maxLoopDepth := (decided_maxLoopDepth _).mpr rfl
    rcases hdecided.default_or_told with hdefault | ⟨place, hmem, htold⟩
    · rw [hdefault]
      exact fun h => Nat.noConfusion (Option.some.inj h)
    · simp only [maxLoopDepthPlaces, List.mem_cons, List.not_mem_nil, or_false] at hmem
      rcases hmem with rfl | rfl | rfl
      · obtain ⟨n, -, hlimit⟩ := htold
        exact hlimit.ne_zero
      · obtain ⟨text, -, hdepth⟩ := htold
        exact hdepth.ne_zero
      · obtain ⟨content, -, i, value, -, hdepth, -⟩ := htold
        exact hdepth.ne_zero
  · intro hflag henv hfile
    rw [Settings.resolve_memorySize, hflag, Environment.numeral?, henv,
      memorySizeField.fromFile_congr hfile, Settings.resolve_memorySize]
    rfl
  · intro hflag henv hfile
    rw [Settings.resolve_maxLoopDepth, hflag, henv, maxLoopDepthField.fromFile_congr hfile,
      Settings.resolve_maxLoopDepth]
  · intro hflag henv
    rw [Limits.resolve_timeoutMs, hflag, Environment.numeral?, henv, Limits.resolve_timeoutMs]
    rfl
  · intro hflag henv
    rw [Limits.resolve_maxSteps, hflag, Environment.numeral?, henv, Limits.resolve_maxSteps]
    rfl

/-- Variables with a malformed number of cells, no limit on nested loops and a
limit on steps. -/
def mixedVariables : Environment := fun name =>
  if name = "BUFFALO_MEMORY_SIZE" then some "12x"
  else if name = "BUFFALO_MAX_LOOP_DEPTH" then some " NoNe "
  else if name = "BUFFALO_MAX_STEPS" then some "9"
  else none

/-- A settings file with malformed values and values outside of the section. -/
def mixedFile : String :=
  "[interpreter]\nmemory_size = \"+64\"\nmemory_size = -1\nmax_loop_depth = 7\n" ++
    "[other]\nmemory_size = 3"

theorem settings_by_precedence_mixed :
    Decided 256 (memorySizePlaces { maxSteps := some 5 } mixedVariables (some mixedFile)) 64 ∧
    Decided (some 2500)
      (maxLoopDepthPlaces { maxSteps := some 5 } mixedVariables (some mixedFile)) none ∧
    Decided 2000 (timeoutPlaces { maxSteps := some 5 } mixedVariables) 2000 ∧
    Decided none (maxStepsPlaces { maxSteps := some 5 } mixedVariables) (some 5) := by
  have h := settings_by_precedence { maxSteps := some 5 } mixedVariables (some mixedFile)
  refine ⟨(h.1 _).mpr ?_, (h.2.1 _).mpr ?_, (h.2.2.1 _).mpr ?_, (h.2.2.2.1 _).mpr ?_⟩
  · decide +kernel
  · decide +kernel
  · decide +kernel
  · decide +kernel

end Prairie
