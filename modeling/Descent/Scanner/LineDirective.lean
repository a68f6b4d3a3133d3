import Descent.Text.Ascii
import Descent.Text.Digit

/-!
# Line directives

A skipped token may say that the text after it stands on another line or comes from another file:
somewhere in it stands the word `line` with a blank and a number, and behind them may stand a blank
and the name of a file in quotes.
-/

namespace Descent

/-- What a line directive says. -/
structure LineDirective where
  /-- The digits of the number, of any script. -/
  digits : List Char
  file? : Option String
  deriving DecidableEq, Repr

namespace LineDirective

/-- The bound for line numbers. -/
def bound : Nat := Nat.pow 2 64

/-- The line number, unless a digit is of another script or the number is too large. -/
def line? (d : LineDirective) : Option Nat :=
  let n := Text.decimalValue d.digits
  if d.digits.all Text.isAsciiDigit ∧ n < bound then some n else none

/-- A file name in quotes after a blank. -/
def readFile : List Char → Option String
  | ' ' :: '"' :: cs =>
    match cs.span (· ≠ '"') with
    | (name, '"' :: _) => if name.isEmpty then none else some (String.ofList name)
    | _ => none
  | _ => none

/-- The line directive at the front of a text. -/
def read? (cs : List Char) : Option LineDirective :=
  if "line ".toList.isPrefixOf cs then
    match (cs.drop 5).span Text.isDigit with
    | ([], _) => none
    | (digits, rest) => some ⟨digits, readFile rest⟩
  else none

/-- The first line directive in a text. -/
def find? : List Char → Option LineDirective
  | [] => none
  | c :: cs => (read? (c :: cs)).or (find? cs)

end LineDirective

end Descent
