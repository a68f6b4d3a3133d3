/-!
# The fewest digits that read back

A finite binary number stands for all reals that round to it: those up to halfway to its
neighbours, the ends included if its significand is even.  Among decimals with 1, 2, … digits the
first that lies in this interval is chosen, and of two with equally many digits the nearer.  All
comparisons are made between natural numbers.
-/

namespace Descent

/-- The finite binary number `significand * 2 ^ exponent`, not negative. -/
structure Binary where
  significand : Nat
  exponent : Int
  /-- Whether the number below is only half as far away as the number above. -/
  narrowBelow : Bool
  deriving DecidableEq, Repr

/-- The decimal number `significand * 10 ^ exponent`. -/
structure Decimal where
  significand : Nat
  exponent : Int
  deriving DecidableEq, Repr

namespace Decimal

/-- Whether `a * 2 ^ i` is less than `b * 10 ^ j`. -/
def binaryLt (a : Nat) (i : Int) (b : Nat) (j : Int) : Bool :=
  a * Nat.pow 2 i.toNat * Nat.pow 10 (-j).toNat < b * Nat.pow 10 j.toNat * Nat.pow 2 (-i).toNat

/-- Whether `a * 2 ^ i` equals `b * 10 ^ j`. -/
def binaryEq (a : Nat) (i : Int) (b : Nat) (j : Int) : Bool :=
  a * Nat.pow 2 i.toNat * Nat.pow 10 (-j).toNat == b * Nat.pow 10 j.toNat * Nat.pow 2 (-i).toNat

/-- Whether `a * 2 ^ i` is at most `b * 10 ^ j`. -/
def binaryLe (a : Nat) (i : Int) (b : Nat) (j : Int) : Bool := binaryLt a i b j || binaryEq a i b j

/-- Whether a decimal rounds to a binary number. -/
def readsBack (x : Binary) (d : Decimal) : Bool :=
  let low := 4 * x.significand - (if x.narrowBelow then 1 else 2)
  let high := 4 * x.significand + 2
  let unit := x.exponent - 2
  if x.significand % 2 = 0 then
    binaryLe low unit d.significand d.exponent && !binaryLt high unit d.significand d.exponent
  else binaryLt low unit d.significand d.exponent && !binaryLe high unit d.significand d.exponent

/-- The least power of ten that is greater than a number. -/
def scale (x : Binary) : Int :=
  let powers := (List.range 700).map fun i => Int.ofNat i - 350
  (powers.find? fun k => binaryLt x.significand x.exponent 1 k).getD 350

/-- The greatest multiple of `10 ^ k` that is not greater than a number. -/
def floorAt (x : Binary) (k : Int) : Nat :=
  (x.significand * Nat.pow 2 x.exponent.toNat * Nat.pow 10 (-k).toNat) /
    (Nat.pow 10 k.toNat * Nat.pow 2 (-x.exponent).toNat)

/-- Whether a number is at least as near to `(c + 1) * 10 ^ k` as to `c * 10 ^ k`. -/
def nearerAbove (x : Binary) (c : Nat) (k : Int) : Bool :=
  !binaryLt (2 * x.significand) x.exponent (2 * c + 1) k

/-- The decimal with `n` digits that reads back, if there is one.  Of two equally near ones the
greater is taken. -/
def withDigits (x : Binary) (n : Nat) : Option Decimal :=
  let k := scale x - n
  let c := floorAt x k
  match readsBack x ⟨c, k⟩, readsBack x ⟨c + 1, k⟩ with
  | true, true => some ⟨if nearerAbove x c k then c + 1 else c, k⟩
  | true, false => some ⟨c, k⟩
  | false, true => some ⟨c + 1, k⟩
  | false, false => none

/-- The decimal with the fewest digits that reads back.  Seventeen digits always do. -/
def shortest (x : Binary) : Decimal :=
  ((List.range 17).findSome? fun n => withDigits x (n + 1)).getD
    ⟨floorAt x (scale x - 17), scale x - 17⟩

/-- The decimal written out, without an exponent. -/
def text (d : Decimal) : String :=
  let digits := (toString d.significand).toList
  if 0 ≤ d.exponent then String.ofList (digits ++ List.replicate d.exponent.toNat '0')
  else
    let places := (-d.exponent).toNat
    let digits := List.replicate (places + 1 - digits.length) '0' ++ digits
    let whole := digits.take (digits.length - places)
    let fraction := ((digits.drop (digits.length - places)).reverse.dropWhile (· == '0')).reverse
    String.ofList (whole ++ if fraction.isEmpty then [] else '.' :: fraction)

end Decimal

/-- The finite number that 64 bits stand for, without its sign. -/
def Binary.ofBits (bits : Nat) : Binary :=
  let fraction := bits % Nat.pow 2 52
  let exponent := bits / Nat.pow 2 52 % Nat.pow 2 11
  if exponent = 0 then ⟨fraction, -1074, false⟩
  else ⟨Nat.pow 2 52 + fraction, Int.ofNat exponent - 1075, fraction == 0 && decide (1 < exponent)⟩

/-- The text of a floating point number: the fewest digits that read back, without an exponent. -/
def floatText (x : Float) : String :=
  let bits := x.toBits.toNat
  let sign := if bits / Nat.pow 2 63 = 1 then "-" else ""
  if x.isNaN then "NaN"
  else if x.isInf then sign ++ "inf"
  else if bits % Nat.pow 2 63 = 0 then sign ++ "0"
  else sign ++ (Decimal.shortest (.ofBits bits)).text

end Descent
