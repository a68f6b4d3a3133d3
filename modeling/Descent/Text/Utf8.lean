/-!
# Bytes of text

The first byte of a character in UTF-8 fixes which bytes can follow it.  Bytes that are no text are
read all the same: where a character breaks off, the bytes up to there become one replacement
character, and reading goes on behind them.
-/

namespace Descent.Text

/-- The character that stands for bytes that are no text. -/
def replacement : Char := '\uFFFD'

/-- The ranges of the bytes that follow a first byte, or none for a byte that cannot come first.
The range of the second byte leaves out overlong forms, surrogates and numbers that are too
large. -/
def following? (b : UInt8) : Option (List (UInt8 × UInt8)) :=
  let tail := (0x80, 0xBF)
  if b < 0x80 then some []
  else if b < 0xC2 then none
  else if b < 0xE0 then some [tail]
  else if b = 0xE0 then some [(0xA0, 0xBF), tail]
  else if b = 0xED then some [(0x80, 0x9F), tail]
  else if b < 0xF0 then some [tail, tail]
  else if b = 0xF0 then some [(0x90, 0xBF), tail, tail]
  else if b < 0xF4 then some [tail, tail, tail]
  else if b = 0xF4 then some [(0x80, 0x8F), tail, tail]
  else none

/-- How many bytes from the first on lie in the ranges, each in its own. -/
def fitting : List (UInt8 × UInt8) → List UInt8 → Nat
  | (low, high) :: ranges, b :: bytes =>
    if low ≤ b && b ≤ high then fitting ranges bytes + 1 else 0
  | _, _ => 0

/-- The first byte of the character with number zero, were it written with `n` bytes that
follow. -/
def leadingMark : (n : Nat) → Nat
  | 0 => 0
  | 1 => 0xC0
  | 2 => 0xE0
  | _ => 0xF0

/-- The character of a first byte and the bytes that follow it, each of which adds six bits. -/
def assemble (b : UInt8) (bytes : List UInt8) : Char :=
  .ofNat (bytes.foldl (fun n b => 64 * n + b.toNat % 64) (b.toNat - leadingMark bytes.length))

/-- The characters that bytes stand for. -/
def decodeLossy : List UInt8 → List Char
  | [] => []
  | b :: bytes =>
    match following? b with
    | none => replacement :: decodeLossy bytes
    | some ranges =>
      let n := fitting ranges bytes
      let c := if n = ranges.length then assemble b (bytes.take n) else replacement
      c :: decodeLossy (bytes.drop n)
termination_by bytes => bytes.length

/-- The text that bytes stand for. -/
def lossy (bytes : List UInt8) : String := String.ofList (decodeLossy bytes)

/-- The bytes of a text. -/
def encode (s : String) : List UInt8 := s.toUTF8.data.toList

/-- The text that bytes stand for, if they are those of a text. -/
def decode? (bytes : List UInt8) : Option String := String.fromUTF8? ⟨bytes.toArray⟩

/-- A text can be read back from its bytes. -/
@[simp]
theorem decode?_encode (s : String) :
  decode? (encode s) = some s
  := by
  have h : (⟨(encode s).toArray⟩ : ByteArray) = s.toUTF8 := by simp [encode]
  simp only [decode?, h]
  exact dif_pos s.isValidUTF8

end Descent.Text
