import Descent.Grammar
import Mathlib.Computability.RegularExpressions
import Mathlib.Logic.Relation

/-!
# Derivations

A rule is a regular expression over symbols (`Rule.expression`), and denotes the words that match
it.  A nonterminal may be rewritten to a word that one of its alternatives denotes, and a derivation
is a sequence of such steps (`Productions.Derives`).  Derivations of parts side by side make up a
derivation of the whole (`Productions.Derives.append`).

All of this depends on a grammar only through the alternatives of its nonterminals, which are its
`Productions`.
-/

namespace Descent

/-! ### The words of a rule -/

namespace Rule

mutual

/-- A rule as a regular expression over symbols.  A name that no symbol has matches nothing. -/
def expression : Rule → RegularExpression Symbol
  | terminal _ t => .char (.terminal t)
  | nonterminal _ n => .char (.nonterminal n)
  | unresolved .. => 0
  | concat _ rs => expressionSeq rs
  | choice _ rs => expressionChoice rs
  | option _ r => 1 + expression r
  | zeroOrMore _ r => (expression r).star
  | oneOrMore _ r => expression r * (expression r).star

/-- A sequence of rules as a regular expression. -/
def expressionSeq : List Rule → RegularExpression Symbol
  | [] => 1
  | r :: rs => expression r * expressionSeq rs

/-- Alternatives as a regular expression. -/
def expressionChoice : List Rule → RegularExpression Symbol
  | [] => 0
  | r :: rs => expression r + expressionChoice rs

end

/-- A rule denotes the words that match its expression. -/
def Denotes (r : Rule) (w : List Symbol) : Prop := w ∈ r.expression.matches'

/-- A sequence of rules denotes the words made of a word of each. -/
def SeqDenotes (rs : List Rule) (w : List Symbol) : Prop := w ∈ (expressionSeq rs).matches'

variable {id : RuleId} {r : Rule} {rs : List Rule} {w : List Symbol}

@[simp]
theorem denotes_terminal {t : TerminalId} :
  (terminal id t).Denotes w ↔ w = [.terminal t]
  := Iff.rfl

@[simp]
theorem denotes_nonterminal {n : NonterminalId} :
  (nonterminal id n).Denotes w ↔ w = [.nonterminal n]
  := Iff.rfl

@[simp]
theorem not_denotes_unresolved {name : String} :
  ¬ (unresolved id name).Denotes w
  := Language.notMem_zero w

@[simp]
theorem denotes_concat :
  (concat id rs).Denotes w ↔ SeqDenotes rs w
  := Iff.rfl

theorem mem_expressionChoice :
  w ∈ (expressionChoice rs).matches' ↔ ∃ r ∈ rs, r.Denotes w
  := by
  induction rs with
  | nil =>
    constructor
    · intro h
      apply absurd h (Language.notMem_zero w)
    · rintro ⟨_, ⟨⟩, _⟩
  | cons r rs ih =>
    simp only [List.mem_cons, exists_eq_or_imp, ← ih]
    apply Language.mem_add

@[simp]
theorem denotes_choice :
  (choice id rs).Denotes w ↔ ∃ r ∈ rs, r.Denotes w
  := mem_expressionChoice

@[simp]
theorem denotes_option :
  (option id r).Denotes w ↔ w = [] ∨ r.Denotes w
  := Iff.rfl

theorem denotes_zeroOrMore :
  (zeroOrMore id r).Denotes w ↔ ∃ ws : List (List Symbol), w = ws.flatten ∧ ∀ v ∈ ws, r.Denotes v
  := Iff.rfl

theorem denotes_oneOrMore :
  (oneOrMore id r).Denotes w ↔ ∃ v, r.Denotes v ∧ ∃ v', (zeroOrMore id r).Denotes v' ∧ v ++ v' = w
  := Language.mem_mul

@[simp]
theorem seqDenotes_nil :
  SeqDenotes [] w ↔ w = []
  := Iff.rfl

theorem seqDenotes_cons :
  SeqDenotes (r :: rs) w ↔ ∃ v, r.Denotes v ∧ ∃ v', SeqDenotes rs v' ∧ v ++ v' = w
  := Language.mem_mul

theorem seqDenotes_append {qs : List Rule} :
  SeqDenotes (qs ++ rs) w ↔ ∃ v, SeqDenotes qs v ∧ ∃ v', SeqDenotes rs v' ∧ v ++ v' = w
  := by
  induction qs generalizing w with
  | nil => simp
  | cons q qs ih =>
    rw [List.cons_append]
    simp only [seqDenotes_cons, ih]
    constructor
    · rintro ⟨u, hu, _, ⟨v, hv, v', hv', rfl⟩, rfl⟩
      exact ⟨u ++ v, ⟨u, hu, v, hv, rfl⟩, v', hv', List.append_assoc u v v'⟩
    · rintro ⟨_, ⟨u, hu, v, hv, rfl⟩, v', hv', rfl⟩
      exact ⟨u, hu, v ++ v', ⟨v, hv, v', hv', rfl⟩, (List.append_assoc u v v').symm⟩

/-- A repetition denotes the empty word. -/
@[simp]
theorem zeroOrMore_denotes_nil :
  (zeroOrMore id r).Denotes []
  := denotes_zeroOrMore.mpr ⟨[], rfl, by simp⟩

/-- A repetition denotes the words of its operand. -/
theorem Denotes.zeroOrMore (h : r.Denotes w) :
  (Rule.zeroOrMore id r).Denotes w
  := denotes_zeroOrMore.mpr ⟨[w], by simp, by simpa using h⟩

/-- A repetition denotes a word of its operand before one of its own. -/
theorem Denotes.again {v : List Symbol} (h : r.Denotes v) (hw : (Rule.zeroOrMore id r).Denotes w) :
  (Rule.zeroOrMore id r).Denotes (v ++ w)
  := by
  obtain ⟨ws, rfl, hws⟩ := denotes_zeroOrMore.mp hw
  apply denotes_zeroOrMore.mpr ⟨v :: ws, rfl, List.forall_mem_cons.mpr ⟨h, hws⟩⟩

/-- A repetition that runs at least once denotes the words of its operand. -/
theorem Denotes.oneOrMore (h : r.Denotes w) :
  (Rule.oneOrMore id r).Denotes w
  := denotes_oneOrMore.mpr ⟨w, h, [], zeroOrMore_denotes_nil, List.append_nil w⟩

/-! ### Symbols and proper rules -/

theorem symbolsAll_singleton :
  symbolsAll [r] = r.symbols
  := List.append_nil r.symbols

theorem mem_symbolsAll {x : Symbol} :
  x ∈ symbolsAll rs ↔ ∃ r ∈ rs, x ∈ r.symbols
  := by
  induction rs with
  | nil =>
    constructor
    · rintro ⟨⟩
    · rintro ⟨_, ⟨⟩, _⟩
  | cons r rs ih =>
    simp only [List.mem_cons, exists_eq_or_imp, ← ih]
    apply List.mem_append

mutual

/-- Whether all names in a rule have a symbol, and all sequences and choices have parts. -/
def isProper : Rule → Bool
  | terminal .. | nonterminal .. => true
  | unresolved .. => false
  | concat _ rs | choice _ rs => !rs.isEmpty && areProper rs
  | option _ r | zeroOrMore _ r | oneOrMore _ r => isProper r

/-- Whether all of several rules are proper. -/
def areProper : List Rule → Bool
  | [] => true
  | r :: rs => isProper r && areProper rs

end

theorem areProper_iff :
  areProper rs ↔ ∀ r ∈ rs, r.isProper
  := by
  induction rs with
  | nil => apply iff_of_true rfl (List.forall_mem_nil _)
  | cons r rs ih =>
    rw [List.forall_mem_cons, ← ih]
    apply Bool.and_eq_true_iff

theorem nonempty_and_areProper_iff :
  (!rs.isEmpty && areProper rs) ↔ rs ≠ [] ∧ ∀ r ∈ rs, r.isProper
  := by simp [areProper_iff]

@[simp]
theorem not_isProper_unresolved {name : String} :
  ¬ (unresolved id name).isProper
  := Bool.false_ne_true

@[simp]
theorem isProper_concat :
  (concat id rs).isProper ↔ rs ≠ [] ∧ ∀ r ∈ rs, r.isProper
  := nonempty_and_areProper_iff

@[simp]
theorem isProper_choice :
  (choice id rs).isProper ↔ rs ≠ [] ∧ ∀ r ∈ rs, r.isProper
  := nonempty_and_areProper_iff

@[simp]
theorem isProper_option :
  (option id r).isProper ↔ r.isProper
  := Iff.rfl

@[simp]
theorem isProper_zeroOrMore :
  (zeroOrMore id r).isProper ↔ r.isProper
  := Iff.rfl

@[simp]
theorem isProper_oneOrMore :
  (oneOrMore id r).isProper ↔ r.isProper
  := Iff.rfl

mutual

/-- A proper rule denotes a word. -/
theorem exists_denotes : ∀ {r : Rule}, r.isProper → ∃ w, r.Denotes w
  | terminal _ t, _ => ⟨_, denotes_terminal.mpr rfl⟩
  | nonterminal _ n, _ => ⟨_, denotes_nonterminal.mpr rfl⟩
  | unresolved .., h => absurd h not_isProper_unresolved
  | concat _ rs, h => exists_seqDenotes (isProper_concat.mp h).2
  | choice _ [], h => absurd rfl (isProper_choice.mp h).1
  | choice _ (r :: rs), h => by
      obtain ⟨w, hw⟩ := exists_denotes ((isProper_choice.mp h).2 r List.mem_cons_self)
      exact ⟨w, denotes_choice.mpr ⟨r, List.mem_cons_self, hw⟩⟩
  | option .., _ => ⟨[], denotes_option.mpr (.inl rfl)⟩
  | zeroOrMore .., _ => ⟨[], zeroOrMore_denotes_nil⟩
  | oneOrMore id r, h => by
      obtain ⟨w, hw⟩ := exists_denotes (isProper_oneOrMore.mp h)
      exact ⟨w, hw.oneOrMore⟩

/-- A sequence of proper rules denotes a word. -/
theorem exists_seqDenotes : ∀ {rs : List Rule}, (∀ r ∈ rs, r.isProper) → ∃ w, SeqDenotes rs w
  | [], _ => ⟨[], seqDenotes_nil.mpr rfl⟩
  | r :: rs, h => by
      obtain ⟨v, hv⟩ := exists_denotes (h r List.mem_cons_self)
      obtain ⟨w, hw⟩ := exists_seqDenotes (fun q hq => h q (List.mem_cons_of_mem r hq))
      exact ⟨v ++ w, seqDenotes_cons.mpr ⟨v, hv, w, hw, rfl⟩⟩

end

end Rule

/-! ### Derivations -/

/-- The alternatives of every nonterminal. -/
abbrev Productions := NonterminalId → List Rule

namespace Grammar

/-- The alternatives of the nonterminals of a grammar. -/
def productions (g : Grammar) : Productions := fun n => (g.nonterminal n).alternatives

theorem mem_nonterminalIds {g : Grammar} {n : NonterminalId} :
  n ∈ g.nonterminalIds ↔ n.index < g.nonterminals.size
  := by
  rw [nonterminalIds, List.mem_map]
  constructor
  · rintro ⟨i, hi, rfl⟩
    apply List.mem_range.mp hi
  · intro h
    exact ⟨n.index, List.mem_range.mpr h, rfl⟩

theorem mem_terminalIds {g : Grammar} {t : TerminalId} :
  t ∈ g.terminalIds ↔ t.index < g.terminals.size
  := by
  rw [terminalIds, List.mem_map]
  constructor
  · rintro ⟨i, hi, rfl⟩
    apply List.mem_range.mp hi
  · intro h
    exact ⟨t.index, List.mem_range.mpr h, rfl⟩

/-- A nonterminal with alternatives has an index. -/
theorem lt_size_of_mem_productions {g : Grammar} {n : NonterminalId} {r : Rule}
    (h : r ∈ g.productions n) :
  n.index < g.nonterminals.size
  := by
  by_contra hn
  have hd : g.nonterminal n = default := by
    rw [nonterminal, Array.getD, dif_neg hn]
  rw [productions, hd] at h
  cases h

/-- What is not a nonterminal of a grammar has no alternatives. -/
theorem productions_eq_nil {g : Grammar} {n : NonterminalId} (hn : n ∉ g.nonterminalIds) :
  g.productions n = []
  := by
  apply List.eq_nil_iff_forall_not_mem.mpr
  intro r hr
  apply hn (mem_nonterminalIds.mpr (lt_size_of_mem_productions hr))

end Grammar

namespace Productions

variable {ps : Productions}

/-- All alternatives are proper. -/
def Proper (ps : Productions) : Prop := ∀ n, ∀ r ∈ ps n, r.isProper

/-- The productions of a grammar are proper if those of its nonterminals are. -/
theorem proper_iff {g : Grammar} :
  g.productions.Proper ↔ ∀ n ∈ g.nonterminalIds, ∀ r ∈ g.productions n, r.isProper
  := by
  constructor
  · intro h n _
    apply h n
  · intro h n r hr
    apply h n (Grammar.mem_nonterminalIds.mpr (Grammar.lt_size_of_mem_productions hr)) r hr

/-- Rewriting a nonterminal in a word to a word that one of its alternatives denotes. -/
inductive Rewrites (ps : Productions) : List Symbol → List Symbol → Prop
  | intro (u v : List Symbol) {n : NonterminalId} {r : Rule} {w : List Symbol}
      (hr : r ∈ ps n) (hw : r.Denotes w) :
      Rewrites ps (u ++ .nonterminal n :: v) (u ++ (w ++ v))

/-- Rewriting any number of times. -/
def Derives (ps : Productions) : List Symbol → List Symbol → Prop :=
  Relation.ReflTransGen ps.Rewrites

/-- A rule derives a word that begins with a terminal. -/
def CanBegin (ps : Productions) (r : Rule) (t : TerminalId) : Prop :=
  ∃ w, r.Denotes w ∧ ∃ v, ps.Derives w (.terminal t :: v)

/-- A rule derives the empty word. -/
def CanVanish (ps : Productions) (r : Rule) : Prop := ∃ w, r.Denotes w ∧ ps.Derives w []

theorem Rewrites.append_left {v w : List Symbol} (h : ps.Rewrites v w) (u : List Symbol) :
  ps.Rewrites (u ++ v) (u ++ w)
  := by
  obtain ⟨a, b, hr, hw⟩ := h
  have h := Rewrites.intro (u ++ a) b hr hw
  rw [List.append_assoc, List.append_assoc] at h
  apply h

theorem Rewrites.append_right {u w : List Symbol} (h : ps.Rewrites u w) (v : List Symbol) :
  ps.Rewrites (u ++ v) (w ++ v)
  := by
  obtain ⟨a, b, hr, hw⟩ := h
  have h := Rewrites.intro a (b ++ v) hr hw
  simpa only [List.append_assoc, List.cons_append] using h

/-- Two words side by side derive what each of them derives, side by side. -/
theorem Derives.append {u u' v v' : List Symbol} (hu : ps.Derives u u') (hv : ps.Derives v v') :
  ps.Derives (u ++ v) (u' ++ v')
  := by
  apply Relation.ReflTransGen.trans (b := u' ++ v)
  · apply Relation.ReflTransGen.lift (· ++ v) (fun _ _ h => Rewrites.append_right h v) _ _ hu
  · apply Relation.ReflTransGen.lift (u' ++ ·) (fun _ _ h => Rewrites.append_left h u') _ _ hv

/-- A nonterminal derives what a word of one of its alternatives derives. -/
theorem Derives.of_alternative {n : NonterminalId} {r : Rule} {v w : List Symbol}
    (hr : r ∈ ps n) (hv : r.Denotes v) (h : ps.Derives v w) :
  ps.Derives [.nonterminal n] w
  := by
  have h' := Rewrites.intro [] [] hr hv
  rw [List.append_nil] at h'
  apply Relation.ReflTransGen.head h' h

end Productions

end Descent
