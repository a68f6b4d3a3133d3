/-!
# Digits and letters of ASCII

Numbers in descriptions, patterns and values are written with the digits of ASCII alone, whatever
other digits there are.
-/

namespace Descent.Text

/-- Whether a character is a decimal digit of ASCII. -/
def isAsciiDigit (c : Char) : Bool := '0' ≤ c && c ≤ '9'

/-- Whether a character is a letter of ASCII. -/
def isAsciiLetter (c : Char) : Bool := ('a' ≤ c && c ≤ 'z') || ('A' ≤ c && c ≤ 'Z')

/-- The value of a digit to the base 16, in either case. -/
def hexValue? (c : Char) : Option Nat :=
  if '0' ≤ c ∧ c ≤ '9' then some (c.toNat - '0'.toNat)
  else if 'a' ≤ c ∧ c ≤ 'f' then some (c.toNat - 'a'.toNat + 10)
  else if 'A' ≤ c ∧ c ≤ 'F' then some (c.toNat - 'A'.toNat + 10)
  else none

/-- Whether a character is a digit to the base 16. -/
def isHexDigit (c : Char) : Bool := (hexValue? c).isSome

/-- The number that digits stand for. -/
def decimalValue (ds : List Char) : Nat :=
  ds.foldl (fun n d => 10 * n + (d.toNat - '0'.toNat)) 0

/-- The number that digits to the base 16 stand for. -/
def hexadecimalValue (ds : List Char) : Nat :=
  ds.foldl (fun n d => 16 * n + (hexValue? d).getD 0) 0

end Descent.Text
