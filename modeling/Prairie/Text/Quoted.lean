/-
  Prairie.Text.Quoted
  ───────────────────
  **QUOTED TEXT.**

  A text is quoted between double quotes so that nothing in it is hidden or
  ambiguous.  Each character is written in one of three ways:

      \0 \t \r \n \" \\     the six short escapes
      \u then braces        the code point in hexadecimal, for characters
                            that are unprintable or extending
      as it is              every other character
-/
import Prairie.Text.Extending
import Prairie.Text.Printable

namespace Prairie.Text

/-- The letter of a short escape, where the character has one. -/
def shortEscape? (c : Char) : Option Char :=
  if c = '\x00' then some '0'
  else if c = '\t' then some 't'
  else if c = '\r' then some 'r'
  else if c = '\n' then some 'n'
  else if c = '\x22' then some '\x22'
  else if c = '\\' then some '\\'
  else none

/-- The escape that names a character by its code point. -/
def codePointEscape (c : Char) : List Char :=
  ['\\', 'u', '\x7b'] ++ Nat.toDigits 16 c.toNat ++ ['\x7d']

/-- How a character is written inside quotes. -/
def escape (c : Char) : List Char :=
  match shortEscape? c with
  | some letter => ['\\', letter]
  | none => if isExtending c || !isPrintable c then codePointEscape c else [c]

/-- A text between double quotes, with every character escaped as needed. -/
def quote (s : String) : String :=
  String.ofList ('\x22' :: s.toList.flatMap escape ++ ['\x22'])

example : quote "a\tb" = "\"a\\tb\"" := by decide +kernel
example : quote "e\u0301" = "\"e\\u\x7b301\x7d\"" := by decide +kernel

end Prairie.Text
