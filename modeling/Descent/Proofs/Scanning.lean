import Mathlib.Tactic.Common
import Descent.Scanner

/-!
# What is scanned was matched

A scanner stays at a place of its input: what it has left behind and what is left make up the input,
and its offset counts the bytes behind it (`Cursor.At`).  A token of a determined kind carries the
text that a pattern of that kind matched at its place (`Lexeme.Matched`), whether it is scanned at
once or was seen ahead before.
-/

namespace Descent

/-! ### Places in an input -/

/-- A place in an input, with the rest of the input from there on. -/
def Cursor.At (c : Cursor) (input : List Char) : Prop :=
  ∃ before, input = before ++ c.rest ∧ c.position.offset = byteLength before

/-- A lexeme whose text a matcher found in an input, at the place of its span. -/
def Lexeme.Matched {κ : Type} (input : List Char) (m : Matcher) (l : Lexeme κ) : Prop :=
  ∃ before rest n, input = before ++ rest ∧ m.find rest = some n ∧
    l.text = String.ofList (rest.take n) ∧ l.span.start = byteLength before ∧
    l.span.stop = byteLength before + byteLength (rest.take n)

namespace Cursor

variable {c : Cursor} {input : List Char}

theorem at_start (text file : String) :
  (start text file).At text.toList
  := ⟨[], rfl, rfl⟩

theorem At.advance (h : c.At input) (count : Nat) :
  (c.advance count).At input
  := by
  obtain ⟨before, hi, ho⟩ := h
  use before ++ c.rest.take count
  constructor
  · rw [rest_advance, List.append_assoc, List.take_append_drop, hi]
  · rw [Cursor.advance, Position.offset_advance, ho, byteLength_append]

/-- Lines and files may be renamed, offsets not. -/
theorem At.redirect (h : c.At input) (text : List Char) :
  (c.redirect text).At input
  := by
  obtain ⟨before, hi, ho⟩ := h
  use before
  constructor
  · rw [rest_redirect, hi]
  · rw [← ho]
    rw [Cursor.redirect]
    split <;> rfl

/-- What a matcher finds at a place makes a matched lexeme. -/
theorem At.matched_lexeme {κ : Type} (h : c.At input) {m : Matcher} {count : Nat}
    (hm : m.find c.rest = some count) (kind : κ) :
  (c.lexeme kind count).Matched input m
  := by
  obtain ⟨before, hi, ho⟩ := h
  exact ⟨before, c.rest, count, hi, hm, rfl, ho, by rw [← ho]; rfl⟩

end Cursor

namespace Scanner

variable {κ : Type} [DecidableEq κ] [TokenKind κ] {s : Scanner κ} {c : Cursor} {input : List Char}

omit [TokenKind κ] in
theorem at_afterSkipped (h : c.At input) (kind : κ) (count : Nat) :
  (s.afterSkipped c kind count).At input
  := by
  rw [afterSkipped]
  split
  · apply (h.advance count).redirect
  · apply h.advance count

omit [TokenKind κ] in
/-- What counts as a match was found. -/
theorem find_of_match? {expected : List κ} {rest : List Char} {p : κ × Matcher} {n : Nat}
    (h : s.match? expected rest p = some n) :
  p.2.find rest = some n
  := by
  unfold match? at h
  split at h
  · apply (Option.filter_eq_some_iff.mp h).1
  · cases h

/-- A token that was found in an input, and the place after it. -/
structure Found (s : Scanner κ) (input : List Char) (p : Token κ × Cursor) : Prop where
  after : p.2.At input
  matched : p.1.kind = TokenKind.undetermined ∨
    ∃ q ∈ s.patterns, q.1 = p.1.kind ∧ p.1.Matched input q.2

theorem found_next (expected : List κ) (c : Cursor) (h : c.At input) :
  s.Found input (s.next expected c)
  := by
  fun_induction next s expected c with
  | case1 c hs => exact ⟨h, .inl rfl⟩
  | case2 c kind count hs hk token after hn ih =>
    obtain ⟨ha, hm⟩ := ih (at_afterSkipped h kind count)
    rw [hn] at ha hm
    exact ⟨ha, hm⟩
  | case3 c kind count hs hk =>
    obtain ⟨q, hq, hqk, hm⟩ := exists_of_select hs
    exact ⟨h.advance count, .inr ⟨q, hq, hqk, h.matched_lexeme (find_of_match? hm) kind⟩⟩

/-! ### States -/

/-- A state at a place of an input, in which what was seen ahead was found in the input. -/
structure State.Valid (s : Scanner κ) (input : List Char) (st : State κ) : Prop where
  cursor : st.cursor.At input
  ahead : ∀ p ∈ st.ahead, s.Found input p

variable {st : State κ}

omit [DecidableEq κ] in
theorem State.valid_start (s : Scanner κ) (text file : String) :
  State.Valid s text.toList (.start text file)
  := ⟨Cursor.at_start text file, by rintro p ⟨⟩⟩

/-- What comes up comes next, or was seen ahead and is determined. -/
theorem upcoming_cases (s : Scanner κ) (st : State κ) (expected : List κ) :
  s.upcoming st expected = s.next expected st.cursor ∨
    ∃ p ∈ st.ahead, p.1.kind ≠ TokenKind.undetermined ∧ s.upcoming st expected = p
  := by
  rw [Scanner.upcoming]
  split
  · next token after ha =>
    split
    case isTrue => exact .inl rfl
    case isFalse hk => exact .inr ⟨(token, after), ha, hk, rfl⟩
  · exact .inl rfl

theorem State.Valid.upcoming (h : State.Valid s input st) (expected : List κ) :
  s.Found input (s.upcoming st expected)
  := by
  obtain hu | ⟨p, hp, _, hu⟩ := s.upcoming_cases st expected
  · rw [hu]
    apply found_next expected _ h.cursor
  · rw [hu]
    apply h.ahead p hp

theorem State.Valid.lookAhead (h : State.Valid s input st) (expected : List κ) :
  State.Valid s input (s.lookAhead st expected).2
  := by
  constructor
  · apply h.cursor
  · rintro _ ⟨⟩
    apply h.upcoming expected

theorem State.Valid.scan (h : State.Valid s input st) (expected : List κ) :
  State.Valid s input (s.scan st expected).2
  := by
  constructor
  · apply (h.upcoming expected).after
  · rintro _ ⟨⟩

end Scanner

end Descent
