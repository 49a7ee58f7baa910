/-
  Prairie.Text.Numeral
  ────────────────────
  **NUMERALS.**

  Every number a user writes (in a flag, a variable or a settings file) is a
  decimal numeral: an optional plus sign, then one or more ASCII digits, with
  a value that fits in 64 bits.  Leading zeros are allowed; blanks, other
  signs, separators and fractions are not.
-/

namespace Prairie.Text

/-- The values a numeral may have lie below this bound, the 64th power of two. -/
def numeralBound : Nat := 18446744073709551616

/-- The value of a list of decimal digits, most significant first; nothing
for an empty list or a list that holds something else. -/
def digitsValue? (cs : List Char) : Option Nat :=
  if cs.isEmpty || !cs.all Char.isDigit then none
  else some (cs.foldl (fun value c => value * 10 + (c.toNat - '0'.toNat)) 0)

/-- The value of a numeral. -/
def numeral? (cs : List Char) : Option Nat :=
  let digits := match cs with
    | '+' :: rest => rest
    | _ => cs
  (digitsValue? digits).filter (· < numeralBound)

/-- The value of a string that is a numeral. -/
def readNumeral? (s : String) : Option Nat := numeral? s.toList

example : readNumeral? "+007" = some 7 := by decide
example : readNumeral? "18446744073709551615" = some 18446744073709551615 := by decide
example : readNumeral? "18446744073709551616" = none := by decide
example : readNumeral? "" = none ∧ readNumeral? "+" = none ∧ readNumeral? "-1" = none := by decide

end Prairie.Text
