/-!
# Ranges of bytes

A range of code points takes, in UTF-8, a number of sequences of byte ranges: a text belongs to the
range if its bytes lie in the ranges of one of the sequences.  `sequences` lists them in increasing
order.
-/

namespace Descent.Text

/-- A closed range of bytes. -/
abbrev ByteRange := Nat × Nat

namespace ByteRange

/-- The last code points that take one, two and three bytes. -/
def lengthEnds : List Nat := [0x7F, 0x7FF, 0xFFFF]

/-- The last code points before the end of a block, for blocks of 64, of 64² and of 64³ code points
that the range does not fill. -/
def blockEnd? (low high : Nat) : Option Nat :=
  [0x40, 0x1000, 0x40000].findSome? fun size =>
    if low / size = high / size then none
    else if low % size ≠ 0 then some (low - low % size + size - 1)
    else if high % size ≠ size - 1 then some (high - high % size - 1)
    else none

/-- Where a range has to be cut: at the surrogates, where the number of bytes changes, and at the
end of a block. -/
def cut? (low high : Nat) : Option Nat :=
  if low < 0xD800 ∧ 0xDFFF < high then some 0xD7FF
  else
    match lengthEnds.find? fun e => low ≤ e ∧ e < high with
    | some e => some e
    | none => if high ≤ 0x7F then none else blockEnd? low high

/-- The bytes of a code point. -/
def encode (c : Nat) : List Nat := (String.utf8EncodeChar (Char.ofNat c)).map UInt8.toNat

/-- The sequences of a range of code points, with at most `fuel` cuts one inside of the other. -/
def sequencesWithin : (fuel : Nat) → (low high : Nat) → List (List ByteRange)
  | 0, _, _ => []
  | fuel + 1, low, high =>
    let low := if 0xD800 ≤ low ∧ low ≤ 0xDFFF then 0xE000 else low
    let high := if 0xD800 ≤ high ∧ high ≤ 0xDFFF then 0xD7FF else high
    if high < low then []
    else
      match cut? low high with
      | some c => sequencesWithin fuel low c ++ sequencesWithin fuel (c + 1) high
      | none => [(encode low).zip (encode high)]

/-- The sequences of a range of code points.  A range is cut at the surrogates, at three lengths
and twice at blocks of each of three sizes. -/
def sequences (low high : Nat) : List (List ByteRange) := sequencesWithin 16 low high

end ByteRange

end Descent.Text
