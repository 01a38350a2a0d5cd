import ArchGraph.Text.Blank
/-!
# Digits

The values of digits and numerals in bases up to sixteen. Main statement: a numeral with one more
digit is worth its base times as much and that digit.
-/

namespace ArchGraph.Text

/-- The value of a hexadecimal digit. -/
def hexDigit? (c : Char) : Option Nat :=
  if c.isDigit then some (c.toNat - '0'.toNat)
  else if 'a' ≤ c ∧ c ≤ 'f' then some (c.toNat - 'a'.toNat + 10)
  else if 'A' ≤ c ∧ c ≤ 'F' then some (c.toNat - 'A'.toNat + 10)
  else none

/-- Whether a character is a digit of a base. -/
def isDigitOf (base : Nat) (c : Char) : Bool := (hexDigit? c).any (· < base)

/-- The number that digits spell in a base. -/
def numeral (base : Nat) (digits : Chars) : Nat :=
  digits.foldl (fun n d => base * n + (hexDigit? d).getD 0) 0

/-- The character with a code, unless the code is that of half a surrogate pair or beyond all
characters. -/
def charOfCode? (code : Nat) : Option Char :=
  if code.isValidChar then some (Char.ofNat code) else none

theorem numeral_concat (base : Nat) (digits : Chars) (d : Char) :
    numeral base (digits ++ [d]) = base * numeral base digits + (hexDigit? d).getD 0 := by
  simp [numeral]

end ArchGraph.Text
