import Descent.Pattern.Compiled
import Descent.Proofs.Calls
import Descent.Proofs.Position
import Descent.Proofs.Scanning

/-!
# Scanners partition their text

A scanner stands at a place of a text if its position is the one after the text behind it
(`Cursor.Stands`).  What a token takes of the text lies from the place where it was looked for to the
place after it (`Scanner.lies_next`), also if it was seen ahead before.  So the tokens that are
consumed, with what is skipped before them, are laid side by side from the beginning of the text to
the place that the scanner has come to, whatever it was asked in between (`Scanner.partitions`).
-/

namespace Descent

variable {κ : Type}

/-! ### What tokens take -/

section

variable [DecidableEq κ] [TokenKind κ]

/-- The text that a token takes of its input, what is skipped before it aside: none if no pattern
matched. -/
def Token.taken (t : Token κ) : List Char :=
  if t.kind = TokenKind.undetermined then [] else t.text.toList

/-- The spans of a token, those of what is skipped before it first, each with the text that it takes
of its input. -/
def Token.stretches (t : Token κ) : List (Span × List Char) :=
  t.skipped.map (fun l => (l.span, l.text.toList)) ++ [(t.span, t.taken)]

theorem Token.taken_of_ne {t : Token κ} (h : t.kind ≠ TokenKind.undetermined) :
  t.taken = t.text.toList
  := if_neg h

theorem Token.taken_of_eq {t : Token κ} (h : t.kind = TokenKind.undetermined) :
  t.taken = []
  := if_pos h

/-- A token that lies from one place to another starts behind the first one and ends at the
second. -/
theorem Token.covers_of_tiles {t : Token κ} {file : String} {before after : List Char}
    (h : Span.Tiles file before t.stretches after) :
  ∃ inner, before <+: inner ∧ inner ++ t.taken = after ∧ t.span.Covers file inner t.taken
  := by
  obtain ⟨inner, hskipped, htoken⟩ := h.exists_of_append
  cases htoken with
  | cons hcovers hnil =>
    cases hnil
    exact ⟨inner, hskipped.isPrefix, rfl, hcovers⟩

end

namespace Cursor

/-- A cursor after some text of an input: its position is the one after that text. -/
structure Stands (c : Cursor) (file : String) (input before : List Char) : Prop where
  input : input = before ++ c.rest
  position : c.position = Position.start.advance before
  file : c.file = file

variable {c : Cursor} {file : String} {input before : List Char}

theorem stands_start (text file : String) :
  (start text file).Stands file text.toList []
  := ⟨rfl, rfl, rfl⟩

theorem Stands.advance (h : c.Stands file input before) (count : Nat) :
  (c.advance count).Stands file input (before ++ c.rest.take count)
  := by
  constructor
  · rw [rest_advance, List.append_assoc, List.take_append_drop, h.input]
  · rw [Cursor.advance, h.position, Position.advance_append]
  · apply h.file

/-- The span of what comes next at a cursor. -/
theorem Stands.covers (h : c.Stands file input before) (inner : List Char) :
  (c.span (byteLength inner)).Covers file before inner
  := by
  rw [Cursor.span, h.file, h.position]
  apply Span.covers_ofPosition

end Cursor

namespace Scanner

variable [DecidableEq κ] [TokenKind κ] {s : Scanner κ} {file : String} {input before : List Char}
  {st : State κ}

/-- A token that lies from one place of an input, with what is skipped before it, to the place after
it. -/
def Lies (file : String) (input before : List Char) (p : Token κ × Cursor) (after : List Char) :
    Prop :=
  Span.Tiles file before p.1.stretches after ∧ p.2.Stands file input after

/-- No pattern is of an undetermined kind, and no lexeme is a line directive. -/
structure IsPlain (s : Scanner κ) : Prop where
  patterns : ∀ p ∈ s.patterns, p.1 ≠ TokenKind.undetermined
  fileAndLine : s.fileAndLine = none

theorem IsPlain.stretches_lexeme (hs : s.IsPlain) {c : Cursor} {expected : List κ} {kind : κ}
    {count : Nat} (h : s.select expected c.rest = some (kind, count)) :
  ({ c.lexeme kind count with skipped := [] } : Token κ).stretches =
    [(c.span (byteLength (c.rest.take count)), c.rest.take count)]
  := by
  obtain ⟨p, hp, rfl, -⟩ := exists_of_select h
  rw [Token.stretches, Token.taken_of_ne (hs.patterns p hp), Cursor.lexeme, String.toList_ofList]
  rfl

/-- What is skipped before a token comes first. -/
theorem stretches_cons (c : Cursor) (kind : κ) (count : Nat) (t : Token κ) :
  ({ t with skipped := c.lexeme kind count :: t.skipped } : Token κ).stretches =
    (c.span (byteLength (c.rest.take count)), c.rest.take count) :: t.stretches
  := by
  rw [Token.stretches, List.map_cons, Cursor.lexeme, String.toList_ofList]
  rfl

omit [TokenKind κ] in
theorem afterSkipped_eq (h : s.fileAndLine = none) (c : Cursor) (kind : κ) (count : Nat) :
  s.afterSkipped c kind count = c.advance count
  := by
  rw [afterSkipped, h]
  apply if_neg
  simp

/-- A token that takes nothing lies at a place. -/
theorem tiles_of_taken_eq_nil {c : Cursor} (h : c.Stands file input before) {t : Token κ}
    (hskipped : t.skipped = []) (hspan : t.span = c.span 0) (htaken : t.taken = []) :
  Span.Tiles file before t.stretches before
  := by
  have hcovers := Span.Tiles.cons (h.covers []) (.nil _)
  rw [List.append_nil] at hcovers
  rw [Token.stretches, hskipped, List.map_nil, List.nil_append, htaken, hspan]
  apply hcovers

/-- The next token lies from the place where it is looked for to the place after it. -/
theorem lies_next (hs : s.IsPlain) (expected : List κ) (c : Cursor)
    (h : c.Stands file input before) :
  ∃ after, Lies file input before (s.next expected c) after
  := by
  fun_induction next s expected c generalizing before with
  | case1 c hselect =>
    exact ⟨before, tiles_of_taken_eq_nil h rfl rfl (Token.taken_of_eq rfl), h⟩
  | case2 c kind count hselect hk token after hn ih =>
    rw [afterSkipped_eq hs.fileAndLine] at ih hn
    obtain ⟨place, htiles, hstands⟩ := ih (h.advance count)
    rw [hn] at htiles hstands
    use place
    refine ⟨?_, hstands⟩
    rw [stretches_cons]
    apply Span.Tiles.cons (h.covers _) htiles
  | case3 c kind count hselect hk =>
    use before ++ c.rest.take count
    refine ⟨?_, h.advance count⟩
    rw [hs.stretches_lexeme hselect]
    apply Span.Tiles.cons (h.covers _) (.nil _)

/-! ### States -/

/-- A state after some text of an input, in which what was seen ahead lies from there on. -/
structure State.Stands (st : State κ) (file : String) (input before : List Char) : Prop where
  cursor : st.cursor.Stands file input before
  ahead : ∀ p ∈ st.ahead, ∃ after, Lies file input before p after

theorem State.stands_start (text file : String) :
  State.Stands (.start text file : State κ) file text.toList []
  := ⟨Cursor.stands_start text file, by rintro p ⟨⟩⟩

theorem State.Stands.upcoming (hs : s.IsPlain) (h : st.Stands file input before)
    (expected : List κ) :
  ∃ after, Lies file input before (s.upcoming st expected) after
  := by
  obtain hu | ⟨p, hp, _, hu⟩ := s.upcoming_cases st expected
  · rw [hu]
    apply lies_next hs expected _ h.cursor
  · rw [hu]
    apply h.ahead p hp

/-- Looking ahead stays at the same place. -/
theorem State.Stands.lookAhead (hs : s.IsPlain) (h : st.Stands file input before)
    (expected : List κ) :
  (s.lookAhead st expected).2.Stands file input before
  := by
  constructor
  · apply h.cursor
  · rintro _ ⟨⟩
    apply h.upcoming hs expected

/-- Scanning goes on to the place after the token. -/
theorem State.Stands.scan (hs : s.IsPlain) (h : st.Stands file input before)
    (expected : List κ) :
  ∃ after, Span.Tiles file before (s.scan st expected).1.stretches after ∧
    (s.scan st expected).2.Stands file input after
  := by
  obtain ⟨place, htiles, hstands⟩ := h.upcoming hs expected
  use place, htiles
  constructor
  · apply hstands
  · rintro _ ⟨⟩

/-- An empty token at the current place takes nothing. -/
theorem State.Stands.here (h : st.Stands file input before) (kind : κ) :
  Span.Tiles file before (st.here kind).stretches before
  := by
  apply tiles_of_taken_eq_nil h.cursor rfl rfl
  unfold Token.taken State.here
  split <;> rfl

/-! ### Sequences of calls -/

/-- A call consumes what lies from its place to the one after it. -/
theorem State.Stands.call (hs : s.IsPlain) (h : st.Stands file input before) {c : Call κ}
    (hc : ¬ c.isStart) :
  ∃ after, Span.Tiles file before ((s.consumed st [c]).flatMap Token.stretches) after ∧
    (s.call st c).2.Stands file input after
  := by
  match c with
  | .start .. => exact absurd rfl hc
  | .lookAhead expected => exact ⟨before, .nil before, h.lookAhead hs expected⟩
  | .scan expected =>
    obtain ⟨place, htiles, hplace⟩ := h.scan hs expected
    use place
    rw [← List.append_nil (Token.stretches _)] at htiles
    exact ⟨htiles, hplace⟩
  | .here _ => exact ⟨before, .nil before, h⟩

/-- What a call returns lies in the input. -/
theorem State.Stands.tiles_call (hs : s.IsPlain) (h : st.Stands file input before) {c : Call κ}
    {t : Token κ} (ht : t ∈ s.returned st [c]) :
  ∃ u v, Span.Tiles file u t.stretches v ∧ v <+: input
  := by
  match c with
  | .start .. => cases ht
  | .lookAhead expected | .scan expected =>
    obtain rfl := List.mem_singleton.mp ht
    obtain ⟨place, htiles, hplace⟩ := h.upcoming hs expected
    exact ⟨before, place, htiles, _, hplace.input.symm⟩
  | .here kind =>
    obtain rfl := List.mem_singleton.mp ht
    exact ⟨before, before, h.here kind, _, h.cursor.input.symm⟩

/-- What calls consume lies from one place of the input to another, and what they return lies in the
input. -/
theorem State.Stands.run (hs : s.IsPlain) {cs : List (Call κ)} (hcs : ∀ c ∈ cs, ¬ c.isStart)
    (h : st.Stands file input before) :
  (∃ after, Span.Tiles file before ((s.consumed st cs).flatMap Token.stretches) after ∧
      (s.after st cs).Stands file input after) ∧
    ∀ t ∈ s.returned st cs, ∃ u v, Span.Tiles file u t.stretches v ∧ v <+: input
  := by
  induction cs generalizing st before with
  | nil => exact ⟨⟨before, .nil before, h⟩, List.forall_mem_nil _⟩
  | cons c cs ih =>
    obtain ⟨hc, hcs⟩ := List.forall_mem_cons.mp hcs
    obtain ⟨between, hfirst, hbetween⟩ := h.call hs hc
    obtain ⟨⟨place, hrest, hplace⟩, hreturned⟩ := ih hcs hbetween
    rw [consumed_cons, returned_cons, List.flatMap_append]
    refine ⟨⟨place, hfirst.append hrest, hplace⟩, List.forall_mem_append.mpr ⟨?_, hreturned⟩⟩
    intro t ht
    apply h.tiles_call hs ht

/-! ### Partitions -/

/-- The spans of what calls consume after a text was given to the scanner, each with the text that it
takes. -/
def stretches (s : Scanner κ) (text file : String) (cs : List (Call κ)) :
    List (Span × List Char) :=
  (s.consumed (.start text file) cs).flatMap Token.stretches

/-- A scanner partitions a text by calls. -/
structure Partitions (s : Scanner κ) (text file : String) (cs : List (Call κ)) : Prop where
  /-- What was consumed makes up the text before the place that the scanner has come to. -/
  taken : text.toList = (s.stretches text file cs).flatMap Prod.snd ++
    (s.after (.start text file) cs).cursor.rest
  position : (s.after (.start text file) cs).cursor.position =
    Position.start.advance ((s.stretches text file cs).flatMap Prod.snd)
  /-- Only scans move the scanner. -/
  unmoved : ∀ cs₁ c cs₂, cs = cs₁ ++ c :: cs₂ → ¬ c.isScan →
    (s.after (.start text file) (cs₁ ++ [c])).cursor = (s.after (.start text file) cs₁).cursor
  contiguous : Span.Contiguous 0 ((s.stretches text file cs).map Prod.fst)
    (s.after (.start text file) cs).cursor.position.offset
  /-- What a token that is returned takes stands in the text where its span says. -/
  located : ∀ t ∈ s.returned (.start text file) cs, ∀ p ∈ t.stretches,
    ∃ u v, text.toList = u ++ p.2 ++ v ∧ p.1.Covers file u p.2
  empty : ∀ t ∈ s.returned (.start text file) cs, t.kind = TokenKind.undetermined → t.span.isEmpty

/-- A scanner without line directives partitions every text, whatever its patterns and however it is
called. -/
theorem partitions (s : Scanner κ) (hpatterns : ∀ p ∈ s.patterns, p.1 ≠ TokenKind.undetermined)
    (hdirectives : s.fileAndLine = none) (text file : String) {cs : List (Call κ)}
    (hcs : ∀ c ∈ cs, ¬ c.isStart) :
  s.Partitions text file cs
  := by
  have hs : s.IsPlain := ⟨hpatterns, hdirectives⟩
  have hstart : State.Stands (.start text file : State κ) file text.toList [] :=
    State.stands_start text file
  obtain ⟨⟨place, htiles, hstands⟩, hreturned⟩ := hstart.run hs hcs
  have hplace : (s.stretches text file cs).flatMap Prod.snd = place := by
    apply htiles.flatMap_snd
  have hlocated : ∀ t ∈ s.returned (.start text file) cs, ∀ p ∈ t.stretches,
      ∃ u v, text.toList = u ++ p.2 ++ v ∧ p.1.Covers file u p.2 := by
    intro t ht p hp
    obtain ⟨_, last, hstretches, rest, hrest⟩ := hreturned t ht
    obtain ⟨u, v, hlast, hcovers⟩ := hstretches.exists_covers p hp
    refine ⟨u, v ++ rest, ?_, hcovers⟩
    rw [← hrest, hlast, List.append_assoc]
  constructor
  · rw [hplace, hstands.cursor.input]
  · rw [hplace, hstands.cursor.position]
  · intro cs₁ c cs₂ heq hscan
    have hc : ¬ c.isStart := hcs c (by rw [heq]; simp)
    rw [after_append, after_cons, after_nil, cursor_call _ _ hc hscan]
  · have hcontiguous := htiles.contiguous
    rw [hstands.cursor.position, Position.advance_start]
    apply hcontiguous
  · apply hlocated
  · intro t ht hk
    obtain ⟨u, v, _, hcovers⟩ := hlocated t ht (t.span, t.taken) (by simp [Token.stretches])
    rw [Token.taken_of_eq hk] at hcovers
    rw [Span.isEmpty, hcovers.start, hcovers.stop]
    simp

/-- A word and a number with blanks between them, also looked for in vain. -/
theorem partitions_wordsAndNumbers :
  let s := ofPatterns ["é+", "[0-9]", "[ \n]+"] [⟨2⟩]
  let word : SymbolKind := .terminal ⟨0⟩
  let number : SymbolKind := .terminal ⟨1⟩
  let calls : List (Call SymbolKind) := [.lookAhead [number], .scan [word], .here word,
    .scan [word], .lookAhead [], .scan [word], .scan []]
  (∀ p ∈ s.patterns, p.1 ≠ TokenKind.undetermined) ∧ s.fileAndLine = none ∧
    (∀ c ∈ calls, ¬ c.isStart) ∧
    (s.stretches "éé\n 7" "" calls).map Prod.snd = [['é', 'é'], ['\n', ' '], [], ['7'], []] ∧
    s.Partitions "éé\n 7" "" calls
  := by
  intro s word number calls
  have hpatterns : ∀ p ∈ s.patterns, p.1 ≠ TokenKind.undetermined := by decide +kernel
  have hcalls : ∀ c ∈ calls, ¬ c.isStart := by decide
  exact ⟨hpatterns, rfl, hcalls, by decide +kernel, partitions s hpatterns rfl _ _ hcalls⟩

end Scanner

end Descent
