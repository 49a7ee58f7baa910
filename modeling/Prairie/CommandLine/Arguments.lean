/-
  Prairie.CommandLine.Arguments
  ─────────────────────────────
  **FLAGS AND OPERANDS.**

  Arguments are read from left to right.  A flag has a long name and perhaps
  a letter; it is a switch, or it takes a value:

      --name   --name value   --name=value
      -x       -x value       -x=value       -xvalue

  Letters can be run together behind one hyphen, up to one that takes a
  value.  A value given as an argument of its own may not begin with a hyphen
  (a lone hyphen is a value like any other), and no flag may be given twice.
  The first argument that is no flag and everything behind it are operands,
  and so is everything behind `--`.
-/
import Prairie.Text.Cut

namespace Prairie.CommandLine

/-! ## §1. Flags. -/

/-- A flag that a command knows. -/
structure Flag where
  /-- The long name, without hyphens. -/
  long : String
  /-- The letter, if it has one. -/
  short : Option Char := none
  /-- Whether the flag takes a value; otherwise it is a switch. -/
  takesValue : Bool := false
  deriving Repr, DecidableEq

/-- Why arguments cannot be understood. -/
inductive UsageError where
  /-- No flag has this name. -/
  | unknownFlag (name : String)
  /-- A flag that takes a value was given none. -/
  | missingValue (name : String)
  /-- A switch was given a value. -/
  | unexpectedValue (name : String)
  /-- A flag was given twice. -/
  | repeatedFlag (name : String)
  /-- Two flags exclude each other. -/
  | conflict (first second : String)
  /-- The value of a flag is no numeral. -/
  | invalidNumeral (name value : String)
  /-- No command has this name. -/
  | unknownCommand (name : String)
  /-- The command takes no operands. -/
  | unexpectedOperand (operand : String)
  deriving Repr, DecidableEq

/-- The message for arguments that cannot be understood. -/
def UsageError.message : UsageError → String
  | unknownFlag name => s!"unknown flag {name}"
  | missingValue name => s!"the flag --{name} needs a value"
  | unexpectedValue name => s!"the flag --{name} takes no value"
  | repeatedFlag name => s!"the flag --{name} is given twice"
  | conflict first second => s!"the flags --{first} and --{second} exclude each other"
  | invalidNumeral name value => s!"the value '{value}' of --{name} is no number"
  | unknownCommand name => s!"unknown command '{name}'"
  | unexpectedOperand operand => s!"unexpected argument '{operand}'"

/-! ## §2. What arguments say. -/

/-- Arguments sorted into flags and operands. -/
structure Arguments where
  /-- The flags in the order given, by long name, with their values. -/
  given : List (String × Option String) := []
  operands : List String := []
  /-- Whether the operands stand behind `--`. -/
  escaped : Bool := false
  deriving Repr, DecidableEq

namespace Arguments

/-- Whether a flag is given. -/
def has (a : Arguments) (name : String) : Bool := a.given.any (·.1 == name)

/-- The value of a flag that is given with one. -/
def value? (a : Arguments) (name : String) : Option String := (a.given.lookup name).join

/-! ## §3. Reading arguments. -/

/-- Whether an argument begins with a hyphen and is more than that. -/
def looksLikeFlag (argument : String) : Bool :=
  argument.startsWith "-" && argument ≠ "-"

/-- What one argument that begins with a hyphen says: the flags it gives, the
last of which may still need a value from the next argument. -/
structure Cluster where
  given : List (String × Option String) := []
  /-- The flag that needs a value from the next argument. -/
  open? : Option Flag := none

/-- Read an argument with a long name. -/
def readLong (flags : List Flag) (body : List Char) : Except UsageError Cluster :=
  let (name, value) := Text.cutAt '=' body
  let name := String.ofList name
  match flags.find? (·.long == name) with
  | none => .error (.unknownFlag ("--" ++ name))
  | some flag =>
      match flag.takesValue, value with
      | false, none => .ok { given := [(flag.long, none)] }
      | false, some _ => .error (.unexpectedValue flag.long)
      | true, none => .ok { open? := some flag }
      | true, some value => .ok { given := [(flag.long, some (String.ofList value))] }

/-- Read letters that are run together. -/
def readShort (flags : List Flag) : List Char → Except UsageError Cluster
  | [] => .ok {}
  | letter :: rest =>
      match flags.find? (·.short == some letter) with
      | none => .error (.unknownFlag (String.ofList ['-', letter]))
      | some flag =>
          if flag.takesValue then
            match rest with
            | [] => .ok { open? := some flag }
            | '=' :: value => .ok { given := [(flag.long, some (String.ofList value))] }
            | value => .ok { given := [(flag.long, some (String.ofList value))] }
          else
            (readShort flags rest).map fun c =>
              { c with given := (flag.long, none) :: c.given }

/-- Read an argument that begins with a hyphen. -/
def readFlag (flags : List Flag) (argument : String) : Except UsageError Cluster :=
  match argument.toList with
  | '-' :: '-' :: body => readLong flags body
  | _ :: letters => readShort flags letters
  | [] => .ok {}

/-- Sort arguments into flags and operands.  Here `given` holds the flags given
so far, and `open?` the flag that takes the next argument as its value. -/
def sort (flags : List Flag) (given : List (String × Option String)) (open? : Option Flag) :
    List String → Except UsageError Arguments
  | [] =>
      match open? with
      | some flag => .error (.missingValue flag.long)
      | none => .ok { given }
  | argument :: rest =>
      match open? with
      | some flag =>
          if looksLikeFlag argument then .error (.missingValue flag.long)
          else sort flags (given ++ [(flag.long, some argument)]) none rest
      | none =>
          if argument = "--" then .ok { given, operands := rest, escaped := true }
          else if looksLikeFlag argument then
            match readFlag flags argument with
            | .error e => .error e
            | .ok cluster => sort flags (given ++ cluster.given) cluster.open? rest
          else .ok { given, operands := argument :: rest }

/-- The first name that occurs twice in a list. -/
def repeated? : List String → Option String
  | [] => none
  | name :: names => if names.contains name then some name else repeated? names

/-- No name is repeated exactly when all names differ. -/
theorem repeated?_eq_none_iff (names : List String) : repeated? names = none ↔ names.Nodup := by
  induction names with
  | nil => simp [repeated?]
  | cons name names ih => by_cases h : name ∈ names <;> simp [repeated?, h, ih]

/-- Read the arguments of a command that knows the flags `flags`. -/
def read (flags : List Flag) (arguments : List String) : Except UsageError Arguments := do
  let a ← sort flags [] none arguments
  match repeated? (a.given.map Prod.fst) with
  | some name => throw (.repeatedFlag name)
  | none => return a

end Arguments

end Prairie.CommandLine
