import Descent.Interpreter
import Descent.Proofs.Scanning

/-!
# Inputs made of tokens

An input is cut into segments if at the front of each of them only the pattern of its terminal finds
a match, which is the segment, and nothing is found at the end (`Grammar.Segments`).  While such an
input is scanned, a token that is expected is read, and no other one is, whatever was seen ahead
before (`Interpreter.State.Ready`).
-/

namespace Descent

/-! ### Selecting the only match -/

namespace Scanner

variable {κ : Type} [DecidableEq κ] {s : Scanner κ} {expected : List κ} {rest : List Char}

omit [DecidableEq κ] in
theorem better_eq_none {best next : Option (κ × Nat)} (h : better best next = none) :
  best = none ∧ next = none
  := by
  match best, next, h with
  | none, none, _ => exact ⟨rfl, rfl⟩
  | some b, some n, h =>
    unfold better at h
    dsimp only at h
    split at h <;> cases h

theorem foldl_better_eq_none (ps : List (κ × Matcher)) : ∀ {best : Option (κ × Nat)},
    ps.foldl (fun best p => better best ((s.match? expected rest p).map fun n => (p.1, n)))
      best = none →
  best = none ∧ ∀ p ∈ ps, s.match? expected rest p = none
  := by
  induction ps with
  | nil =>
    intro best h
    exact ⟨h, by simp⟩
  | cons p ps ih =>
    intro best h
    obtain ⟨hp, hps⟩ := ih h
    obtain ⟨hb, hp⟩ := better_eq_none hp
    exact ⟨hb, List.forall_mem_cons.mpr ⟨Option.map_eq_none_iff.mp hp, hps⟩⟩

/-- Nothing is selected only if no match counts. -/
theorem match?_of_select_eq_none (h : s.select expected rest = none) :
  ∀ p ∈ s.patterns, s.match? expected rest p = none
  := (foldl_better_eq_none s.patterns h).2

/-- Nothing is selected where no pattern that is tried finds a match. -/
theorem select_eq_none (h : ∀ p ∈ s.patterns, s.isTried expected p.1 → p.2.find rest = none) :
  s.select expected rest = none
  := by
  rw [Option.eq_none_iff_forall_ne_some]
  rintro ⟨k, n⟩ hk
  obtain ⟨p, hp, _, hm⟩ := exists_of_select hk
  unfold match? at hm
  split at hm
  case isTrue ht =>
    rw [h p hp ht] at hm
    cases hm
  case isFalse => cases hm

/-- The only match is selected if its kind is tried and not skipped. -/
theorem select_eq_some {p : κ × Matcher} {n : Nat} (hp : p ∈ s.patterns)
    (ht : s.isTried expected p.1) (hs : p.1 ∉ s.skip) (hn : p.2.find rest = some n)
    (h : ∀ q ∈ s.patterns, ∀ m, q.2.find rest = some m → q.1 = p.1 ∧ m = n) :
  s.select expected rest = some (p.1, n)
  := by
  cases hk : s.select expected rest with
  | none =>
    have hm := match?_of_select_eq_none hk p hp
    simp [match?, ht, hs, hn] at hm
  | some x =>
    obtain ⟨k, m⟩ := x
    obtain ⟨q, hq, rfl, hm⟩ := exists_of_select hk
    obtain ⟨hqp, hmn⟩ := h q hq m (find_of_match? hm)
    rw [hqp, hmn]

variable [TokenKind κ] {c : Cursor}

theorem next_of_select_eq_none (h : s.select expected c.rest = none) :
  s.next expected c = (undeterminedAt c, c)
  := by
  rw [next]
  split
  · rfl
  · next hk =>
    rw [h] at hk
    cases hk

theorem next_of_select_eq_some {kind : κ} {n : Nat} (h : s.select expected c.rest = some (kind, n))
    (hs : kind ∉ s.skip) :
  s.next expected c = ({ c.lexeme kind n with skipped := [] }, c.advance n)
  := by
  rw [next]
  split
  · next hk =>
    rw [h] at hk
    cases hk
  · next hk =>
    rw [h] at hk
    cases hk
    rw [dif_neg hs]

end Scanner

/-! ### Segments of an input -/

/-- The text of tokens, one after the other. -/
def joined (ts : List (TerminalId × List Char)) : List Char := ts.flatMap Prod.snd

/-- Tokens that their joined text is cut into: at the front of each only the pattern of its terminal
finds a match, which is its text, and nothing is found at the end. -/
def Grammar.Segments (g : Grammar) : List (TerminalId × List Char) → Prop
  | [] => ∀ u ∈ g.terminalIds, (g.terminal u).matcher.find [] = none
  | (t, w) :: ts =>
    w ≠ [] ∧
      (∀ u ∈ g.terminalIds, (g.terminal u).matcher.find (w ++ joined ts) =
        if u = t then some w.length else none) ∧
      Segments g ts

instance (g : Grammar) : DecidablePred g.Segments := decide g
where
  decide (g : Grammar) : (ts : List (TerminalId × List Char)) → Decidable (g.Segments ts)
    | [] => inferInstanceAs (Decidable (∀ u ∈ g.terminalIds, (g.terminal u).matcher.find [] = none))
    | (t, w) :: ts =>
      have := decide g ts
      inferInstanceAs (Decidable (w ≠ [] ∧
        (∀ u ∈ g.terminalIds, (g.terminal u).matcher.find (w ++ joined ts) =
          if u = t then some w.length else none) ∧ g.Segments ts))

/-- A token that was read, and the place after it, from where on the input is made of the tokens
that come after. -/
structure Reads (x : TerminalId × List Char) (us : List (TerminalId × List Char))
    (p : Token SymbolKind × Cursor) : Prop where
  kind : p.1.kind = .terminal x.1
  text : p.1.text = String.ofList x.2
  rest : p.2.rest = joined us

namespace Grammar

variable {g : Grammar} {ts us : List (TerminalId × List Char)} {x : TerminalId × List Char}
  {expected : List SymbolKind} {c : Cursor}

theorem Segments.tail (h : g.Segments (x :: us)) :
  g.Segments us
  := h.2.2

theorem terminal_mem_skip {t : TerminalId} :
  SymbolKind.terminal t ∈ g.scanner.skip ↔ t ∈ g.skip
  := by simp [scanner]

/-- What is expected at the front of a token is read. -/
theorem reads_next (h : g.Segments (x :: us)) (hx : x.1 ∈ g.terminalIds) (hs : x.1 ∉ g.skip)
    (hc : c.rest = joined (x :: us)) (ht : g.scanner.isTried expected (.terminal x.1)) :
  Reads x us (g.scanner.next expected c)
  := by
  obtain ⟨t, w⟩ := x
  obtain ⟨_, hfind, _⟩ := h
  have hrest : c.rest = w ++ joined us := hc
  have hsel : g.scanner.select expected c.rest = some (.terminal t, w.length) := by
    rw [hrest]
    have hp : (SymbolKind.terminal t, (g.terminal t).matcher) ∈ g.scanner.patterns :=
      List.mem_map_of_mem hx
    apply Scanner.select_eq_some hp ht (terminal_mem_skip.not.mpr hs)
    · rw [hfind t hx, if_pos rfl]
    · intro q hq m hm
      obtain ⟨u, hu, rfl⟩ := List.mem_map.mp hq
      rw [hfind u hu] at hm
      split at hm
      case isTrue hut =>
        rw [hut]
        exact ⟨rfl, (Option.some_inj.mp hm).symm⟩
      case isFalse => cases hm
  rw [Scanner.next_of_select_eq_some hsel (terminal_mem_skip.not.mpr hs)]
  constructor
  · rfl
  · simp [Cursor.lexeme, hrest]
  · simp [hrest]

/-- What is not expected is not read. -/
theorem undetermined_next (h : g.Segments ts) (hc : c.rest = joined ts)
    (ht : ∀ x us, ts = x :: us → ¬ g.scanner.isTried expected (.terminal x.1)) :
  (g.scanner.next expected c).1.kind = .undetermined
  := by
  have hsel : g.scanner.select expected c.rest = none := by
    rw [hc]
    apply Scanner.select_eq_none
    intro q hq hq'
    obtain ⟨u, hu, rfl⟩ := List.mem_map.mp hq
    match ts, h with
    | [], h => apply h u hu
    | (t, w) :: us, ⟨_, hfind, _⟩ =>
      have hut : u ≠ t := by
        rintro rfl
        apply ht _ us rfl hq'
      apply (hfind u hu).trans (if_neg hut)
  rw [Scanner.next_of_select_eq_none hsel]
  rfl

end Grammar

/-! ### States in front of tokens -/

namespace Interpreter

/-- A state from where on the input is made of tokens that are not skipped.  What was seen ahead is
undetermined or the first of them. -/
structure State.Ready (i : Interpreter) (ts : List (TerminalId × List Char)) (s : State) :
    Prop where
  segments : i.grammar.Segments ts
  visible : ∀ x ∈ ts, x.1 ∈ i.grammar.terminalIds ∧ x.1 ∉ i.grammar.skip
  rest : s.scanner.cursor.rest = joined ts
  ahead : ∀ p ∈ s.scanner.ahead, p.1.kind = .undetermined ∨ ∃ x us, ts = x :: us ∧ Reads x us p

namespace State.Ready

variable {i : Interpreter} {ts us : List (TerminalId × List Char)} {x : TerminalId × List Char}
  {s s' : State} {expected : List SymbolKind}

/-- Whether a state is ready depends on how far it is scanned only. -/
theorem congr (h : s.Ready i ts) (hs : s'.scanner = s.scanner) :
  s'.Ready i ts
  := by
  constructor
  · apply h.segments
  · apply h.visible
  · rw [hs, h.rest]
  · rw [hs]
    apply h.ahead

/-- A token that is expected comes up if it is next. -/
theorem reads_upcoming (h : s.Ready i (x :: us)) (hx : .terminal x.1 ∈ expected) :
  Reads x us (i.grammar.scanner.upcoming s.scanner expected)
  := by
  obtain ⟨hm, hs⟩ := h.visible x List.mem_cons_self
  have hnext : Reads x us (i.grammar.scanner.next expected s.scanner.cursor) := by
    apply Grammar.reads_next h.segments hm hs h.rest
    simp [Scanner.isTried, hx]
  obtain hu | ⟨p, hp, hk, hu⟩ := i.grammar.scanner.upcoming_cases s.scanner expected
  · rw [hu]
    apply hnext
  · obtain hundetermined | ⟨y, vs, hy, hr⟩ := h.ahead p hp
    · exact absurd hundetermined hk
    · cases hy
      rw [hu]
      apply hr

/-- What comes up is undetermined or the next token. -/
theorem upcoming (h : s.Ready i ts) (expected : List SymbolKind) :
  (i.grammar.scanner.upcoming s.scanner expected).1.kind = .undetermined ∨
    ∃ x us, ts = x :: us ∧ Reads x us (i.grammar.scanner.upcoming s.scanner expected)
  := by
  have hnext : (i.grammar.scanner.next expected s.scanner.cursor).1.kind = .undetermined ∨
      ∃ x us, ts = x :: us ∧ Reads x us (i.grammar.scanner.next expected s.scanner.cursor) := by
    by_cases ht : ∃ x us, ts = x :: us ∧ i.grammar.scanner.isTried expected (.terminal x.1)
    · obtain ⟨x, us, rfl, ht⟩ := ht
      obtain ⟨hm, hs⟩ := h.visible x List.mem_cons_self
      exact .inr ⟨x, us, rfl, Grammar.reads_next h.segments hm hs h.rest ht⟩
    · apply Or.inl
      apply Grammar.undetermined_next h.segments h.rest
      intro x us hts hx
      apply ht ⟨x, us, hts, hx⟩
  obtain hu | ⟨p, hp, _, hu⟩ := i.grammar.scanner.upcoming_cases s.scanner expected
  · rw [hu]
    apply hnext
  · rw [hu]
    apply h.ahead p hp

theorem lookAhead (h : s.Ready i ts) (expected : List TerminalId) :
  (s.lookAhead i expected).2.Ready i ts
  := by
  constructor
  · apply h.segments
  · apply h.visible
  · apply h.rest
  · rintro _ ⟨⟩
    apply h.upcoming _

/-- The next token is seen if it is expected. -/
theorem kind_lookAhead (h : s.Ready i (x :: us)) {expected : List TerminalId}
    (hx : x.1 ∈ expected) :
  (s.lookAhead i expected).1.kind = .terminal x.1
  := (h.reads_upcoming (List.mem_map_of_mem hx)).kind

/-- Looking ahead tells whether the next token is one of those that are expected. -/
theorem isOneOf_lookAhead (h : s.Ready i ts) (expected : List TerminalId) :
  isOneOf (s.lookAhead i expected).1 expected ↔ ∃ x us, ts = x :: us ∧ x.1 ∈ expected
  := by
  constructor
  · intro hk
    obtain hu | ⟨x, us, hts, hr⟩ := h.upcoming (expected.map .terminal)
    · simp [isOneOf, State.lookAhead, Scanner.lookAhead, hu] at hk
    · refine ⟨x, us, hts, ?_⟩
      simpa [isOneOf, State.lookAhead, Scanner.lookAhead, hr.kind] using hk
  · rintro ⟨x, us, rfl, hx⟩
    simpa [isOneOf, h.kind_lookAhead hx] using hx

/-- The token that is expected is read. -/
theorem consume (h : s.Ready i (x :: us)) (node : NodeId) :
  (s.consume i node x.1).1.kind = .terminal x.1 ∧
    (s.consume i node x.1).1.text = String.ofList x.2 ∧ (s.consume i node x.1).2.Ready i us
  := by
  have hr : Reads x us (i.grammar.scanner.upcoming s.scanner [.terminal x.1]) :=
    h.reads_upcoming List.mem_cons_self
  refine ⟨hr.kind, hr.text, h.segments.tail, ?_, hr.rest, ?_⟩
  · intro y hy
    apply h.visible y (List.mem_cons_of_mem x hy)
  · rintro _ ⟨⟩

end State.Ready

end Interpreter

end Descent
