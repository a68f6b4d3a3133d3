import Descent.Matcher
import Descent.Scanner.LineDirective
import Descent.Token

/-!
# Scanners

A scanner cuts a text into tokens on demand.  At each place the longest match counts, and of equally
long ones that of the earliest pattern.  Lexemes of the kinds to skip are gathered before the next
token.  Looking ahead keeps the token that was found, unless its kind is undetermined, until it is
scanned.
-/

namespace Descent

/-- A place in a text whose lines and file may have been renamed, and the text from there on. -/
structure Cursor where
  position : Position
  file : String
  rest : List Char
  deriving DecidableEq, Repr

namespace Cursor

/-- The start of a text. -/
def start (text file : String) : Cursor := ⟨.start, file, text.toList⟩

/-- The span of the next `length` bytes. -/
def span (c : Cursor) (length : Nat) : Span := .ofPosition c.file c.position length

/-- The lexeme of the next `count` characters. -/
def lexeme {κ : Type} (c : Cursor) (kind : κ) (count : Nat) : Lexeme κ :=
  let text := c.rest.take count
  ⟨kind, c.span (byteLength text), String.ofList text⟩

/-- The place after the next `count` characters. -/
def advance (c : Cursor) (count : Nat) : Cursor :=
  { c with position := c.position.advance (c.rest.take count), rest := c.rest.drop count }

/-- The place with line and file changed by a directive in the text right before it.  The number is
that of the next line, or of this one if the text ends its line. -/
def redirect (c : Cursor) (text : List Char) : Cursor :=
  match LineDirective.find? text with
  | none => c
  | some d =>
    let line := match d.line? with
      | none => c.position.line
      | some n => if text.getLast? = some '\n' then n else n - 1
    { c with position := { c.position with line }, file := d.file?.getD c.file }

@[simp]
theorem rest_advance (c : Cursor) (count : Nat) :
  (c.advance count).rest = c.rest.drop count
  := rfl

@[simp]
theorem rest_redirect (c : Cursor) (text : List Char) :
  (c.redirect text).rest = c.rest
  := by
  unfold redirect
  split <;> rfl

end Cursor

/-- A scanner: patterns in order, the kinds to skip, and the kind whose lexemes may be line
directives. -/
structure Scanner (κ : Type) where
  patterns : List (κ × Matcher)
  skip : List κ
  fileAndLine : Option κ

namespace Scanner

variable {κ : Type} [DecidableEq κ]

/-! ### Selecting a match -/

/-- Whether a kind is tried when the given kinds are expected; expecting none means all. -/
def isTried (s : Scanner κ) (expected : List κ) (kind : κ) : Bool :=
  expected.isEmpty || kind ∈ s.skip || kind ∈ expected

/-- The match of a pattern that counts.  A lexeme to skip must not be empty. -/
def match? (s : Scanner κ) (expected : List κ) (rest : List Char) (p : κ × Matcher) : Option Nat :=
  if s.isTried expected p.1 then
    (p.2.find rest).filter fun n => !(decide (p.1 ∈ s.skip) && n == 0)
  else none

/-- The better of two matches: the second only if it is longer. -/
def better (best next : Option (κ × Nat)) : Option (κ × Nat) :=
  match best, next with
  | none, next => next
  | best, none => best
  | some b, some n => if b.2 < n.2 then some n else some b

/-- The kind and length of the match that counts at the front of a text. -/
def select (s : Scanner κ) (expected : List κ) (rest : List Char) : Option (κ × Nat) :=
  s.patterns.foldl
    (fun best p => better best ((s.match? expected rest p).map fun n => (p.1, n)))
    none

omit [DecidableEq κ] in
theorem eq_of_better {best next : Option (κ × Nat)} {m : κ × Nat}
    (h : better best next = some m) :
  best = some m ∨ next = some m
  := by
  unfold better at h
  split at h
  · exact .inr h
  · exact .inl h
  · split at h
    · exact .inr h
    · exact .inl h

theorem exists_of_foldl_better (s : Scanner κ) (expected : List κ) (rest : List Char)
    (ps : List (κ × Matcher)) :
    ∀ {best : Option (κ × Nat)} {m : κ × Nat},
      ps.foldl (fun best p => better best ((s.match? expected rest p).map fun n => (p.1, n)))
        best = some m →
  best = some m ∨ ∃ p ∈ ps, p.1 = m.1 ∧ s.match? expected rest p = some m.2
  := by
  induction ps with
  | nil =>
    intro best m h
    exact .inl h
  | cons p ps ih =>
    intro best m h
    rcases ih h with h | ⟨q, hq, hm⟩
    · rcases eq_of_better h with h | h
      · exact .inl h
      · obtain ⟨n, hn, rfl⟩ := Option.map_eq_some_iff.1 h
        exact .inr ⟨p, by simp, rfl, hn⟩
    · exact .inr ⟨q, by simp [hq], hm⟩

/-- What is selected is a match of one of the patterns. -/
theorem exists_of_select {s : Scanner κ} {expected : List κ} {rest : List Char} {kind : κ} {n : Nat}
    (h : s.select expected rest = some (kind, n)) :
  ∃ p ∈ s.patterns, p.1 = kind ∧ s.match? expected rest p = some n
  := by
  rcases exists_of_foldl_better s expected rest s.patterns h with h | h
  · cases h
  · exact h

theorem le_of_match? {s : Scanner κ} {expected : List κ} {rest : List Char} {p : κ × Matcher}
    {n : Nat} (h : s.match? expected rest p = some n) :
  n ≤ rest.length
  := by
  unfold match? at h
  split at h
  · exact p.2.find_le (Option.filter_eq_some_iff.1 h).1
  · cases h

theorem pos_of_match? {s : Scanner κ} {expected : List κ} {rest : List Char} {p : κ × Matcher}
    {n : Nat} (h : s.match? expected rest p = some n) (hs : p.1 ∈ s.skip) :
  0 < n
  := by
  unfold match? at h
  split at h
  · have := (Option.filter_eq_some_iff.1 h).2
    simp only [hs, decide_true, Bool.true_and, Bool.not_eq_true', beq_eq_false_iff_ne] at this
    exact Nat.pos_of_ne_zero this
  · cases h

/-- A selected match ends within the text. -/
theorem le_of_select {s : Scanner κ} {expected : List κ} {rest : List Char} {kind : κ} {n : Nat}
    (h : s.select expected rest = some (kind, n)) :
  n ≤ rest.length
  := by
  obtain ⟨p, -, -, hm⟩ := exists_of_select h
  exact le_of_match? hm

/-- A selected match to skip is not empty. -/
theorem pos_of_select {s : Scanner κ} {expected : List κ} {rest : List Char} {kind : κ} {n : Nat}
    (h : s.select expected rest = some (kind, n)) (hs : kind ∈ s.skip) :
  0 < n
  := by
  obtain ⟨p, -, rfl, hm⟩ := exists_of_select h
  exact pos_of_match? hm hs

/-! ### Tokens -/

variable [TokenKind κ]

/-- The token where no pattern matches: it is empty, and its text is the next character. -/
def undeterminedAt (c : Cursor) : Token κ :=
  { kind := TokenKind.undetermined
    span := c.span 0
    text := match c.rest with
      | [] => "EOF"
      | d :: _ => String.singleton d
    skipped := [] }

/-- The place after a skipped lexeme. -/
def afterSkipped (s : Scanner κ) (c : Cursor) (kind : κ) (count : Nat) : Cursor :=
  if s.fileAndLine = some kind then (c.advance count).redirect (c.rest.take count)
  else c.advance count

omit [TokenKind κ] in
theorem rest_afterSkipped (s : Scanner κ) (c : Cursor) (kind : κ) (count : Nat) :
  (s.afterSkipped c kind count).rest = c.rest.drop count
  := by
  unfold afterSkipped
  split <;> simp

/-- The next token, with the lexemes skipped before it, and the place after it. -/
def next (s : Scanner κ) (expected : List κ) (c : Cursor) : Token κ × Cursor :=
  match _h : s.select expected c.rest with
  | none => (undeterminedAt c, c)
  | some (kind, count) =>
    if _hs : kind ∈ s.skip then
      let (token, after) := next s expected (s.afterSkipped c kind count)
      ({ token with skipped := c.lexeme kind count :: token.skipped }, after)
    else ({ c.lexeme kind count with skipped := [] }, c.advance count)
  termination_by c.rest.length
  decreasing_by
    have := le_of_select _h
    have := pos_of_select _h _hs
    rw [rest_afterSkipped, List.length_drop]
    omega

/-! ### Scanning -/

/-- How far a text has been scanned, and what was seen ahead. -/
structure State (κ : Type) where
  cursor : Cursor
  ahead : Option (Token κ × Cursor)
  deriving DecidableEq, Repr

namespace State

/-- The state before a text is scanned. -/
def start (text file : String) : State κ := ⟨.start text file, none⟩

/-- An empty token at the current place. -/
def here (st : State κ) (kind : κ) : Token κ :=
  { kind, span := st.cursor.span 0, text := "", skipped := [] }

end State

/-- The next token: the one that was seen ahead if its kind is determined, or else a new one. -/
def upcoming (s : Scanner κ) (st : State κ) (expected : List κ) : Token κ × Cursor :=
  match st.ahead with
  | some (token, after) =>
    if token.kind = TokenKind.undetermined then s.next expected st.cursor else (token, after)
  | none => s.next expected st.cursor

/-- Looks at the next token and keeps it in mind. -/
def lookAhead (s : Scanner κ) (st : State κ) (expected : List κ) : Token κ × State κ :=
  let seen := s.upcoming st expected
  (seen.1, { st with ahead := some seen })

/-- Consumes the next token. -/
def scan (s : Scanner κ) (st : State κ) (expected : List κ) : Token κ × State κ :=
  let (token, after) := s.upcoming st expected
  (token, ⟨after, none⟩)

end Scanner

end Descent
