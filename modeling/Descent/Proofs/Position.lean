import Mathlib.Data.List.DropRight
import Descent.Position

/-!
# Positions as counts

The position after a text that is read from the beginning is told by the text alone: its offset is
the number of bytes, its line one more than the number of line feeds, and its column one more than
the number of characters after the last line feed (`Position.advance_start`).  A span covers a
stretch of a text if it says so of the text before it (`Span.Covers`).  Spans that cover a text one
after the other (`Span.Tiles`) leave no gap (`Span.Tiles.contiguous`).
-/

namespace Descent

/-! ### Counting -/

theorem byteLength_le_of_isPrefix {cs ds : List Char} (h : cs <+: ds) :
  byteLength cs ≤ byteLength ds
  := by
  obtain ⟨rest, rfl⟩ := h
  rw [byteLength_append]
  apply Nat.le_add_right

theorem byteLength_eq_zero_iff {cs : List Char} :
  byteLength cs = 0 ↔ cs = []
  := by
  cases cs with
  | nil => simp
  | cons c cs =>
    have := c.utf8Size_pos
    simp only [byteLength_cons, reduceCtorEq, iff_false]
    omega

/-- The characters of a text after its last line feed, or all of them. -/
def lastLine (cs : List Char) : List Char := cs.rtakeWhile (· ≠ '\n')

@[simp]
theorem lastLine_concat (cs : List Char) (c : Char) :
  lastLine (cs ++ [c]) = if c = '\n' then [] else lastLine cs ++ [c]
  := by
  rw [lastLine, List.rtakeWhile_concat]
  by_cases h : c = '\n' <;> simp [h, lastLine]

namespace Position

theorem advance_concat (p : Position) (cs : List Char) (c : Char) :
  p.advance (cs ++ [c]) = (p.advance cs).step c
  := by rw [advance_append, advance_cons, advance_nil]

/-- A text leads on by as many lines as it has line feeds. -/
theorem line_advance (p : Position) (cs : List Char) :
  (p.advance cs).line = p.line + cs.count '\n'
  := by
  induction cs generalizing p with
  | nil => rfl
  | cons c cs ih =>
    rw [advance_cons, ih, step]
    by_cases h : c = '\n'
    · simp [h, Nat.add_assoc, Nat.add_comm 1]
    · simp [h]

/-- The position after a text. -/
theorem advance_start (cs : List Char) :
  start.advance cs = ⟨byteLength cs, 1 + cs.count '\n', 1 + (lastLine cs).length⟩
  := by
  induction cs using List.reverseRecOn with
  | nil => rfl
  | append_singleton cs c ih =>
    rw [advance_concat, ih, step, lastLine_concat]
    by_cases h : c = '\n'
    · simp [h, Nat.add_assoc]
    · simp [h, Nat.add_assoc]

end Position

/-! ### Covering a text -/

namespace Span

/-- A span of a stretch of a text, given the text before it: it counts the bytes up to both ends,
and the lines and the characters of the line up to where it starts. -/
structure Covers (s : Span) (file : String) (before inner : List Char) : Prop where
  file : s.file = file
  start : s.start = byteLength before
  stop : s.stop = byteLength before + byteLength inner
  line : s.line = 1 + before.count '\n'
  column : s.column = 1 + (lastLine before).length

/-- The span that is made of the position after a text covers what comes next. -/
theorem covers_ofPosition (file : String) (before inner : List Char) :
  (ofPosition file (Position.start.advance before) (byteLength inner)).Covers file before inner
  := by
  rw [Position.advance_start]
  exact ⟨rfl, rfl, rfl, rfl, rfl⟩

/-- A span that covers a stretch starts at the position after the text before it. -/
theorem Covers.position {s : Span} {file : String} {before inner : List Char}
    (h : s.Covers file before inner) :
  s.position = Position.start.advance before
  := by rw [Span.position, h.start, h.line, h.column, Position.advance_start]

theorem start_of_position {s : Span} {before : List Char}
    (h : s.position = Position.start.advance before) :
  s.start = byteLength before
  := by
  rw [Position.advance_start] at h
  apply congrArg Position.offset h

/-- Spans that go from one byte to another without a gap. -/
def Contiguous : (start : Nat) → List Span → (stop : Nat) → Prop
  | start, [], stop => start = stop
  | start, s :: ss, stop => s.start = start ∧ Contiguous s.stop ss stop

/-- Spans, each with the stretch that it covers, that lie side by side from the end of one text to
that of a longer one. -/
inductive Tiles (file : String) : List Char → List (Span × List Char) → List Char → Prop
  | nil (before : List Char) : Tiles file before [] before
  | cons {before after inner : List Char} {s : Span} {ps : List (Span × List Char)}
      (hs : s.Covers file before inner) (h : Tiles file (before ++ inner) ps after) :
      Tiles file before ((s, inner) :: ps) after

namespace Tiles

variable {file : String} {before after : List Char} {ps qs : List (Span × List Char)}

theorem append {between : List Char} (h : Tiles file before ps between)
    (h' : Tiles file between qs after) :
  Tiles file before (ps ++ qs) after
  := by
  induction h with
  | nil before => apply h'
  | cons hs _ ih => exact .cons hs (ih h')

/-- Where spans of a tiling come to, the rest of them begins. -/
theorem exists_of_append : ∀ {before : List Char} {ps : List (Span × List Char)},
    Tiles file before (ps ++ qs) after →
  ∃ between, Tiles file before ps between ∧ Tiles file between qs after
  | before, [], h => ⟨before, .nil before, h⟩
  | _, _ :: _, .cons hs h => by
      obtain ⟨between, hp, hq⟩ := exists_of_append h
      exact ⟨between, .cons hs hp, hq⟩

/-- The stretches of a tiling, one after the other, lead from the first text to the second. -/
theorem flatMap_snd (h : Tiles file before ps after) :
  before ++ ps.flatMap Prod.snd = after
  := by
  induction h with
  | nil before => apply List.append_nil
  | cons _ _ ih => rw [List.flatMap_cons, ← List.append_assoc, ih]

/-- A tiling goes on from the text before it. -/
theorem isPrefix (h : Tiles file before ps after) :
  before <+: after
  := ⟨_, h.flatMap_snd⟩

/-- The spans of a tiling leave no gap. -/
theorem contiguous (h : Tiles file before ps after) :
  Contiguous (byteLength before) (ps.map Prod.fst) (byteLength after)
  := by
  induction h with
  | nil before => rfl
  | cons hs _ ih =>
    rw [byteLength_append, ← hs.stop] at ih
    exact ⟨hs.start, ih⟩

/-- Every span of a tiling covers its stretch. -/
theorem exists_covers (h : Tiles file before ps after) :
  ∀ p ∈ ps, ∃ u v, after = u ++ p.2 ++ v ∧ p.1.Covers file u p.2
  := by
  induction h with
  | nil before => simp
  | @cons before after inner s ps hs h ih =>
    exact List.forall_mem_cons.mpr ⟨⟨before, _, h.flatMap_snd.symm, hs⟩, ih⟩

end Tiles

end Span

end Descent
