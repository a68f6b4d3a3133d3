import Descent.Text.Ascii
import Descent.Text.Blank

/-!
# Reading numbers

An integer is a sign, if any, and digits.  A floating point number may have a point, an exponent, or
be one of the words for infinity and for what is no number.  Blanks around either do not count.
-/

namespace Descent

/-- Cuts off a sign; whether it is a minus, and the rest. -/
def readSign : List Char → Bool × List Char
  | '-' :: cs => (true, cs)
  | '+' :: cs => (false, cs)
  | cs => (false, cs)

/-- The integer that digits and a sign stand for. -/
def readInteger? (s : String) : Option Int :=
  let (negative, cs) := readSign (Text.trim s.toList)
  if cs.isEmpty || !cs.all Text.isAsciiDigit then none
  else some (if negative then -(Text.decimalValue cs : Int) else Text.decimalValue cs)

/-- The integer of 64 bits that a text stands for. -/
def readInt64? (s : String) : Option Int :=
  (readInteger? s).filter fun n => -Int.ofNat (Nat.pow 2 63) ≤ n ∧ n < Int.ofNat (Nat.pow 2 63)

/-- The exponent at the end of a number; none is zero. -/
def readExponent? : List Char → Option Int
  | [] => some 0
  | c :: cs =>
    if c = 'e' ∨ c = 'E' then
      let (negative, ds) := readSign cs
      if ds.isEmpty || !ds.all Text.isAsciiDigit then none
      else some (if negative then -(Text.decimalValue ds : Int) else Text.decimalValue ds)
    else none

/-- The floating point number nearest to `m * 10 ^ e`.  Where that is out of range by far, the
power is not worked out. -/
def nearestFloat (m : Nat) (e : Int) : Float :=
  let magnitude := (toString m).length + e
  if m = 0 ∨ magnitude < -400 then 0
  else if 400 < magnitude then Float.ofScientific 1 false 400
  else if e < 0 then Float.ofScientific m true (-e).toNat
  else Float.ofScientific m false e.toNat

/-- The floating point number of digits with a point and an exponent. -/
def readDecimal? (cs : List Char) : Option Float := do
  let whole := cs.takeWhile Text.isAsciiDigit
  let rest := cs.drop whole.length
  let (fraction, rest) := match rest with
    | '.' :: cs => (cs.takeWhile Text.isAsciiDigit, cs.dropWhile Text.isAsciiDigit)
    | cs => ([], cs)
  if whole.isEmpty && fraction.isEmpty then none
  else
    let e ← readExponent? rest
    pure (nearestFloat (Text.decimalValue (whole ++ fraction)) (e - fraction.length))

/-- The floating point number that a text stands for. -/
def readFloat? (s : String) : Option Float :=
  let (negative, cs) := readSign (Text.trim s.toList)
  let word := String.ofList (cs.map Char.toLower)
  let x? :=
    if word = "inf" ∨ word = "infinity" then some (1 / 0)
    else if word = "nan" then some (0 / 0)
    else readDecimal? cs
  x?.map fun x => if negative then -x else x

end Descent
