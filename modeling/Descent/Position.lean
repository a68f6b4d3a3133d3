/-!
# Positions and spans

A position counts the bytes of the text before it, the lines from 1 and the characters of its line
from 1.  Only a line feed ends a line.  A span is a stretch of a named text together with the line
and the column at which it starts; it may grow to cover another span and never shrinks.
-/

namespace Descent

/-- The number of bytes a text takes in UTF-8. -/
def byteLength : List Char → Nat
  | [] => 0
  | c :: cs => c.utf8Size + byteLength cs

@[simp]
theorem byteLength_nil :
  byteLength [] = 0
  := rfl

@[simp]
theorem byteLength_cons (c : Char) (cs : List Char) :
  byteLength (c :: cs) = c.utf8Size + byteLength cs
  := rfl

@[simp]
theorem byteLength_append (cs ds : List Char) :
  byteLength (cs ++ ds) = byteLength cs + byteLength ds
  := by
  induction cs with
  | nil => simp
  | cons c cs ih => simp [ih, Nat.add_assoc]

/-! ### Positions -/

/-- A place in a text: bytes before it, line and column. -/
structure Position where
  offset : Nat
  line : Nat
  column : Nat
  deriving DecidableEq, Repr

namespace Position

/-- The beginning of a text. -/
def start : Position := ⟨0, 1, 1⟩

/-- The position after one character. -/
def step (p : Position) (c : Char) : Position :=
  if c = '\n' then ⟨p.offset + c.utf8Size, p.line + 1, 1⟩
  else ⟨p.offset + c.utf8Size, p.line, p.column + 1⟩

/-- The position after a text. -/
def advance (p : Position) (cs : List Char) : Position := cs.foldl step p

@[simp]
theorem advance_nil (p : Position) :
  p.advance [] = p
  := rfl

@[simp]
theorem advance_cons (p : Position) (c : Char) (cs : List Char) :
  p.advance (c :: cs) = (p.step c).advance cs
  := rfl

theorem advance_append (p : Position) (cs ds : List Char) :
  p.advance (cs ++ ds) = (p.advance cs).advance ds
  := List.foldl_append

@[simp]
theorem offset_step (p : Position) (c : Char) :
  (p.step c).offset = p.offset + c.utf8Size
  := by
  unfold step
  split <;> rfl

@[simp]
theorem offset_advance (p : Position) (cs : List Char) :
  (p.advance cs).offset = p.offset + byteLength cs
  := by
  induction cs generalizing p with
  | nil => simp
  | cons c cs ih => simp [ih, Nat.add_assoc]

end Position

/-! ### Spans -/

/-- A stretch of a text, with the line and column of its first character. -/
structure Span where
  file : String
  start : Nat
  stop : Nat
  line : Nat
  column : Nat
  deriving DecidableEq, Repr, Inhabited

namespace Span

/-- The empty span that points nowhere. -/
def nowhere : Span := ⟨"", 0, 0, 0, 0⟩

/-- The span of `length` bytes from a position on. -/
def ofPosition (file : String) (p : Position) (length : Nat) : Span :=
  ⟨file, p.offset, p.offset + length, p.line, p.column⟩

/-- The number of bytes in the span. -/
def length (s : Span) : Nat := s.stop - s.start

/-- Whether the span covers no text. -/
def isEmpty (s : Span) : Bool := s.stop == s.start

/-- The position at which the span starts. -/
def position (s : Span) : Position := ⟨s.start, s.line, s.column⟩

/-- The span of `inner`, found after `before` in the text that starts at this span. -/
def within (s : Span) (before inner : List Char) : Span :=
  ofPosition s.file (s.position.advance before) (byteLength inner)

/-- The span grown to cover another one.  Line and column stay those of the first. -/
def widen (s other : Span) : Span :=
  { s with start := min s.start other.start, stop := max s.stop other.stop }

theorem start_widen_le (s other : Span) :
  (s.widen other).start ≤ s.start
  := Nat.min_le_left _ _

theorem le_stop_widen (s other : Span) :
  s.stop ≤ (s.widen other).stop
  := Nat.le_max_left _ _

end Span

end Descent
