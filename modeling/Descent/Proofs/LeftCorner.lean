import Descent.Proofs.Derivation

/-!
# Left corners

A nullable rule is one that a walk may pass over (`Productions.Nullable`), and a left corner of a
rule is a symbol that a walk may meet first in it (`Productions.Corner`).  A rule begins with the
terminals that its left corners start with, through any number of nonterminals
(`Productions.Begins`).

* For proper rules this is what derivations say: a rule is nullable if it derives the empty word
  (`Productions.nullable_iff_canVanish`), and begins with a terminal if it derives a word that
  begins with it (`Productions.begins_iff_canBegin`).
* A nonterminal is left recursive if it reaches itself from left corner to left corner
  (`Productions.LeftRecursive`).
-/

namespace Descent

namespace Productions

variable {ps : Productions}

/-! ### Nullable rules -/

/-- A rule that may be passed over.  Names that no symbol has may, sequences without parts may
not. -/
inductive Nullable (ps : Productions) : Rule → Prop
  | nonterminal (id : RuleId) {n : NonterminalId} {r : Rule} (hr : r ∈ ps n) (h : Nullable ps r) :
      Nullable ps (.nonterminal id n)
  | unresolved (id : RuleId) (name : String) : Nullable ps (.unresolved id name)
  | concat (id : RuleId) {rs : List Rule} (hne : rs ≠ []) (h : ∀ r ∈ rs, Nullable ps r) :
      Nullable ps (.concat id rs)
  | choice (id : RuleId) {rs : List Rule} {r : Rule} (hr : r ∈ rs) (h : Nullable ps r) :
      Nullable ps (.choice id rs)
  | option (id : RuleId) (r : Rule) : Nullable ps (.option id r)
  | zeroOrMore (id : RuleId) (r : Rule) : Nullable ps (.zeroOrMore id r)
  | oneOrMore (id : RuleId) {r : Rule} (h : Nullable ps r) : Nullable ps (.oneOrMore id r)

variable {id : RuleId} {r : Rule} {rs : List Rule}

@[simp]
theorem not_nullable_terminal {t : TerminalId} :
  ¬ ps.Nullable (.terminal id t)
  := by rintro ⟨⟩

@[simp]
theorem nullable_nonterminal {n : NonterminalId} :
  ps.Nullable (.nonterminal id n) ↔ ∃ r ∈ ps n, ps.Nullable r
  := by
  constructor
  · rintro ⟨⟩
    exact ⟨_, by assumption, by assumption⟩
  · rintro ⟨r, hr, h⟩
    apply Nullable.nonterminal id hr h

@[simp]
theorem nullable_unresolved {name : String} :
  ps.Nullable (.unresolved id name)
  := .unresolved id name

@[simp]
theorem nullable_concat :
  ps.Nullable (.concat id rs) ↔ rs ≠ [] ∧ ∀ r ∈ rs, ps.Nullable r
  := by
  constructor
  · rintro ⟨⟩
    exact ⟨by assumption, by assumption⟩
  · rintro ⟨hne, h⟩
    apply Nullable.concat id hne h

@[simp]
theorem nullable_choice :
  ps.Nullable (.choice id rs) ↔ ∃ r ∈ rs, ps.Nullable r
  := by
  constructor
  · rintro ⟨⟩
    exact ⟨_, by assumption, by assumption⟩
  · rintro ⟨r, hr, h⟩
    apply Nullable.choice id hr h

@[simp]
theorem nullable_option :
  ps.Nullable (.option id r)
  := .option id r

@[simp]
theorem nullable_zeroOrMore :
  ps.Nullable (.zeroOrMore id r)
  := .zeroOrMore id r

@[simp]
theorem nullable_oneOrMore :
  ps.Nullable (.oneOrMore id r) ↔ ps.Nullable r
  := by
  constructor
  · rintro ⟨⟩
    assumption
  · apply Nullable.oneOrMore id

/-! ### Left corners of rules -/

/-- The symbols that may be met first in a rule: those behind parts that may be passed over. -/
inductive Corner (ps : Productions) : Rule → Symbol → Prop
  | terminal (id : RuleId) (t : TerminalId) : Corner ps (.terminal id t) (.terminal t)
  | nonterminal (id : RuleId) (n : NonterminalId) : Corner ps (.nonterminal id n) (.nonterminal n)
  | concat (id : RuleId) {before : List Rule} {r : Rule} (after : List Rule) {x : Symbol}
      (hb : ∀ q ∈ before, ps.Nullable q) (h : Corner ps r x) :
      Corner ps (.concat id (before ++ r :: after)) x
  | choice (id : RuleId) {rs : List Rule} {r : Rule} {x : Symbol} (hr : r ∈ rs)
      (h : Corner ps r x) : Corner ps (.choice id rs) x
  | option (id : RuleId) {r : Rule} {x : Symbol} (h : Corner ps r x) : Corner ps (.option id r) x
  | zeroOrMore (id : RuleId) {r : Rule} {x : Symbol} (h : Corner ps r x) :
      Corner ps (.zeroOrMore id r) x
  | oneOrMore (id : RuleId) {r : Rule} {x : Symbol} (h : Corner ps r x) :
      Corner ps (.oneOrMore id r) x

/-- The symbols that may be met first in a sequence of rules. -/
def SeqCorner (ps : Productions) : List Rule → Symbol → Prop
  | [], _ => False
  | r :: rs, x => ps.Corner r x ∨ ps.Nullable r ∧ SeqCorner ps rs x

variable {x : Symbol}

@[simp]
theorem corner_terminal {t : TerminalId} :
  ps.Corner (.terminal id t) x ↔ x = .terminal t
  := by
  constructor
  · rintro ⟨⟩
    rfl
  · rintro rfl
    apply Corner.terminal

@[simp]
theorem corner_nonterminal {n : NonterminalId} :
  ps.Corner (.nonterminal id n) x ↔ x = .nonterminal n
  := by
  constructor
  · rintro ⟨⟩
    rfl
  · rintro rfl
    apply Corner.nonterminal

@[simp]
theorem not_corner_unresolved {name : String} :
  ¬ ps.Corner (.unresolved id name) x
  := by rintro ⟨⟩

theorem seqCorner_iff :
  ps.SeqCorner rs x ↔
    ∃ before r after, rs = before ++ r :: after ∧ (∀ q ∈ before, ps.Nullable q) ∧ ps.Corner r x
  := by
  induction rs with
  | nil => simp [SeqCorner]
  | cons r rs ih =>
    rw [SeqCorner, ih]
    constructor
    · rintro (h | ⟨hr, before, q, after, rfl, hb, h⟩)
      · exact ⟨[], r, rs, rfl, by simp, h⟩
      · exact ⟨r :: before, q, after, rfl, List.forall_mem_cons.mpr ⟨hr, hb⟩, h⟩
    · rintro ⟨_ | ⟨p, before⟩, q, after, he, hb, h⟩
      · obtain ⟨rfl, rfl⟩ := List.cons_eq_cons.mp he
        exact .inl h
      · obtain ⟨rfl, rfl⟩ := List.cons_eq_cons.mp he
        obtain ⟨hr, hb⟩ := List.forall_mem_cons.mp hb
        exact .inr ⟨hr, before, q, after, rfl, hb, h⟩

@[simp]
theorem corner_concat :
  ps.Corner (.concat id rs) x ↔ ps.SeqCorner rs x
  := by
  rw [seqCorner_iff]
  constructor
  · rintro ⟨⟩
    exact ⟨_, _, _, rfl, by assumption, by assumption⟩
  · rintro ⟨before, r, after, rfl, hb, h⟩
    apply Corner.concat id after hb h

@[simp]
theorem corner_choice :
  ps.Corner (.choice id rs) x ↔ ∃ r ∈ rs, ps.Corner r x
  := by
  constructor
  · rintro ⟨⟩
    exact ⟨_, by assumption, by assumption⟩
  · rintro ⟨r, hr, h⟩
    apply Corner.choice id hr h

@[simp]
theorem corner_option :
  ps.Corner (.option id r) x ↔ ps.Corner r x
  := by
  constructor
  · rintro ⟨⟩
    assumption
  · apply Corner.option

@[simp]
theorem corner_zeroOrMore :
  ps.Corner (.zeroOrMore id r) x ↔ ps.Corner r x
  := by
  constructor
  · rintro ⟨⟩
    assumption
  · apply Corner.zeroOrMore

@[simp]
theorem corner_oneOrMore :
  ps.Corner (.oneOrMore id r) x ↔ ps.Corner r x
  := by
  constructor
  · rintro ⟨⟩
    assumption
  · apply Corner.oneOrMore

/-- A proper rule has a left corner. -/
theorem exists_corner : ∀ {r : Rule}, r.isProper → ∃ x ∈ r.symbols, ps.Corner r x
  | .terminal id t, _ => ⟨_, List.mem_cons_self, .terminal id t⟩
  | .nonterminal id n, _ => ⟨_, List.mem_cons_self, .nonterminal id n⟩
  | .unresolved .., h => absurd h Rule.not_isProper_unresolved
  | .concat _ [], h => absurd rfl (Rule.isProper_concat.mp h).1
  | .concat _ (r :: rs), h => by
      obtain ⟨x, hx, hc⟩ := exists_corner ((Rule.isProper_concat.mp h).2 r List.mem_cons_self)
      exact ⟨x, List.mem_append_left _ hx, corner_concat.mpr (.inl hc)⟩
  | .choice _ [], h => absurd rfl (Rule.isProper_choice.mp h).1
  | .choice _ (r :: rs), h => by
      obtain ⟨x, hx, hc⟩ := exists_corner ((Rule.isProper_choice.mp h).2 r List.mem_cons_self)
      exact ⟨x, List.mem_append_left _ hx, corner_choice.mpr ⟨r, List.mem_cons_self, hc⟩⟩
  | .option id r, h => by
      obtain ⟨x, hx, hc⟩ := exists_corner (Rule.isProper_option.mp h)
      exact ⟨x, hx, hc.option id⟩
  | .zeroOrMore id r, h => by
      obtain ⟨x, hx, hc⟩ := exists_corner (Rule.isProper_zeroOrMore.mp h)
      exact ⟨x, hx, hc.zeroOrMore id⟩
  | .oneOrMore id r, h => by
      obtain ⟨x, hx, hc⟩ := exists_corner (Rule.isProper_oneOrMore.mp h)
      exact ⟨x, hx, hc.oneOrMore id⟩

/-- A nonterminal is a left corner of another one if it is one of one of its alternatives. -/
def LeftCorner (ps : Productions) (m n : NonterminalId) : Prop :=
  ∃ r ∈ ps m, ps.Corner r (.nonterminal n)

/-- A nonterminal that reaches itself in one or more steps from left corner to left corner. -/
def LeftRecursive (ps : Productions) (n : NonterminalId) : Prop :=
  Relation.TransGen ps.LeftCorner n n

/-! ### Terminals at the beginning -/

/-- The terminals that a symbol starts with: a terminal itself, a nonterminal what the left corners
of its alternatives start with. -/
inductive Starts (ps : Productions) : Symbol → TerminalId → Prop
  | terminal (t : TerminalId) : Starts ps (.terminal t) t
  | nonterminal {n : NonterminalId} {r : Rule} {x : Symbol} {t : TerminalId} (hr : r ∈ ps n)
      (hx : ps.Corner r x) (h : Starts ps x t) : Starts ps (.nonterminal n) t

/-- The terminals that a rule begins with: those that its left corners start with. -/
def Begins (ps : Productions) (r : Rule) (t : TerminalId) : Prop :=
  ∃ x, ps.Corner r x ∧ ps.Starts x t

/-- The terminals that a sequence of rules begins with. -/
def SeqBegins (ps : Productions) (rs : List Rule) (t : TerminalId) : Prop :=
  ∃ x, ps.SeqCorner rs x ∧ ps.Starts x t

variable {t u : TerminalId}

@[simp]
theorem starts_terminal :
  ps.Starts (.terminal u) t ↔ t = u
  := by
  constructor
  · rintro ⟨⟩
    rfl
  · rintro rfl
    apply Starts.terminal

@[simp]
theorem starts_nonterminal {n : NonterminalId} :
  ps.Starts (.nonterminal n) t ↔ ∃ r ∈ ps n, ps.Begins r t
  := by
  constructor
  · rintro ⟨⟩
    exact ⟨_, by assumption, _, by assumption, by assumption⟩
  · rintro ⟨r, hr, x, hx, h⟩
    apply Starts.nonterminal hr hx h

@[simp]
theorem begins_terminal :
  ps.Begins (.terminal id u) t ↔ t = u
  := by simp [Begins]

@[simp]
theorem begins_nonterminal {n : NonterminalId} :
  ps.Begins (.nonterminal id n) t ↔ ∃ r ∈ ps n, ps.Begins r t
  := by
  rw [← starts_nonterminal]
  simp [Begins]

@[simp]
theorem not_begins_unresolved {name : String} :
  ¬ ps.Begins (.unresolved id name) t
  := by simp [Begins]

@[simp]
theorem begins_concat :
  ps.Begins (.concat id rs) t ↔ ps.SeqBegins rs t
  := by simp only [Begins, SeqBegins, corner_concat]

@[simp]
theorem begins_choice :
  ps.Begins (.choice id rs) t ↔ ∃ r ∈ rs, ps.Begins r t
  := by
  simp only [Begins, corner_choice]
  constructor
  · rintro ⟨x, ⟨r, hr, hx⟩, h⟩
    exact ⟨r, hr, x, hx, h⟩
  · rintro ⟨r, hr, x, hx, h⟩
    exact ⟨x, ⟨r, hr, hx⟩, h⟩

@[simp]
theorem begins_option :
  ps.Begins (.option id r) t ↔ ps.Begins r t
  := by simp only [Begins, corner_option]

@[simp]
theorem begins_zeroOrMore :
  ps.Begins (.zeroOrMore id r) t ↔ ps.Begins r t
  := by simp only [Begins, corner_zeroOrMore]

@[simp]
theorem begins_oneOrMore :
  ps.Begins (.oneOrMore id r) t ↔ ps.Begins r t
  := by simp only [Begins, corner_oneOrMore]

@[simp]
theorem not_seqBegins_nil :
  ¬ ps.SeqBegins [] t
  := by simp [SeqBegins, SeqCorner]

@[simp]
theorem seqBegins_cons :
  ps.SeqBegins (r :: rs) t ↔ ps.Begins r t ∨ ps.Nullable r ∧ ps.SeqBegins rs t
  := by
  simp only [SeqBegins, SeqCorner, Begins]
  constructor
  · rintro ⟨x, hx | ⟨hr, hx⟩, h⟩
    · exact .inl ⟨x, hx, h⟩
    · exact .inr ⟨hr, x, hx, h⟩
  · rintro (⟨x, hx, h⟩ | ⟨hr, x, hx, h⟩)
    · exact ⟨x, .inl hx, h⟩
    · exact ⟨x, .inr ⟨hr, hx⟩, h⟩

/-! ### Left corners are derived -/

/-- Nullable parts denote, side by side, a word that derives the empty one. -/
theorem seq_canVanish (h : ∀ r ∈ rs, ps.CanVanish r) :
  ∃ w, Rule.SeqDenotes rs w ∧ ps.Derives w []
  := by
  induction rs with
  | nil => exact ⟨[], Rule.seqDenotes_nil.mpr rfl, .refl⟩
  | cons r rs ih =>
    obtain ⟨hr, hrs⟩ := List.forall_mem_cons.mp h
    obtain ⟨v, hv, hv'⟩ := hr
    obtain ⟨w, hw, hw'⟩ := ih hrs
    use v ++ w, Rule.seqDenotes_cons.mpr ⟨v, hv, w, hw, rfl⟩
    apply Derives.append hv' hw'

/-- A proper nullable rule derives the empty word. -/
theorem Nullable.canVanish (hps : ps.Proper) (h : ps.Nullable r) (hr : r.isProper) :
  ps.CanVanish r
  := by
  induction h with
  | nonterminal id hq _ ih =>
    obtain ⟨w, hw, h⟩ := ih (hps _ _ hq)
    exact ⟨_, Rule.denotes_nonterminal.mpr rfl, .of_alternative hq hw h⟩
  | unresolved => exact absurd hr Rule.not_isProper_unresolved
  | concat id _ _ ih =>
    apply seq_canVanish
    intro q hq
    apply ih q hq ((Rule.isProper_concat.mp hr).2 q hq)
  | choice id hq _ ih =>
    obtain ⟨w, hw, h⟩ := ih ((Rule.isProper_choice.mp hr).2 _ hq)
    exact ⟨w, Rule.denotes_choice.mpr ⟨_, hq, hw⟩, h⟩
  | option id r => exact ⟨[], Rule.denotes_option.mpr (.inl rfl), .refl⟩
  | zeroOrMore id r => exact ⟨[], Rule.zeroOrMore_denotes_nil, .refl⟩
  | oneOrMore id _ ih =>
    obtain ⟨w, hw, h⟩ := ih (Rule.isProper_oneOrMore.mp hr)
    exact ⟨w, hw.oneOrMore, h⟩

/-- A proper rule denotes a word in which only what derives the empty word stands before a left
corner. -/
theorem Corner.denoted (hps : ps.Proper) (h : ps.Corner r x) (hr : r.isProper) :
  ∃ u v, r.Denotes (u ++ x :: v) ∧ ps.Derives u []
  := by
  induction h with
  | terminal id t => exact ⟨[], [], Rule.denotes_terminal.mpr rfl, .refl⟩
  | nonterminal id n => exact ⟨[], [], Rule.denotes_nonterminal.mpr rfl, .refl⟩
  | @concat id before r after x hb _ ih =>
    have hp := (Rule.isProper_concat.mp hr).2
    obtain ⟨u, v, h, hu⟩ := ih (hp r (by simp))
    obtain ⟨w, hw⟩ := Rule.exists_seqDenotes fun q (hq : q ∈ after) => hp q (by simp [hq])
    obtain ⟨u', hu', hd⟩ := seq_canVanish fun q hq => (hb q hq).canVanish hps (hp q (by simp [hq]))
    use u' ++ u, v ++ w
    constructor
    · have hs := Rule.seqDenotes_append.mpr
        ⟨u', hu', _, Rule.seqDenotes_cons.mpr ⟨_, h, w, hw, rfl⟩, rfl⟩
      simpa using hs
    · apply Derives.append hd hu
  | choice id hq _ ih =>
    obtain ⟨u, v, h, hu⟩ := ih ((Rule.isProper_choice.mp hr).2 _ hq)
    exact ⟨u, v, Rule.denotes_choice.mpr ⟨_, hq, h⟩, hu⟩
  | option id _ ih =>
    obtain ⟨u, v, h, hu⟩ := ih (Rule.isProper_option.mp hr)
    exact ⟨u, v, Rule.denotes_option.mpr (.inr h), hu⟩
  | zeroOrMore id _ ih =>
    obtain ⟨u, v, h, hu⟩ := ih (Rule.isProper_zeroOrMore.mp hr)
    exact ⟨u, v, h.zeroOrMore, hu⟩
  | oneOrMore id _ ih =>
    obtain ⟨u, v, h, hu⟩ := ih (Rule.isProper_oneOrMore.mp hr)
    exact ⟨u, v, h.oneOrMore, hu⟩

/-- A symbol derives a word that begins with a terminal that it starts with. -/
theorem Starts.derives (hps : ps.Proper) (h : ps.Starts x t) :
  ∃ v, ps.Derives [x] (.terminal t :: v)
  := by
  induction h with
  | terminal t => exact ⟨[], .refl⟩
  | nonterminal hr hx _ ih =>
    obtain ⟨v, hv⟩ := ih
    obtain ⟨u, w, h, hu⟩ := hx.denoted hps (hps _ _ hr)
    use v ++ w
    apply Derives.of_alternative hr h
    apply hu.append (hv.append .refl)

/-- A proper rule derives a word that begins with a terminal that it begins with. -/
theorem Begins.canBegin (hps : ps.Proper) (h : ps.Begins r t) (hr : r.isProper) :
  ps.CanBegin r t
  := by
  obtain ⟨x, hx, h⟩ := h
  obtain ⟨u, w, hw, hu⟩ := hx.denoted hps hr
  obtain ⟨v, hv⟩ := h.derives hps
  use u ++ x :: w, hw, v ++ w
  apply hu.append (hv.append .refl)

/-! ### What is derived has left corners -/

/-- The symbols that may be passed over: the nonterminals with a nullable alternative. -/
def SymbolNullable (ps : Productions) : Symbol → Prop
  | .terminal _ => False
  | .nonterminal n => ∃ r ∈ ps n, ps.Nullable r

/-- The terminals that the first of the symbols that may not be passed over, or one before it,
starts with. -/
def WordStarts (ps : Productions) : List Symbol → TerminalId → Prop
  | [], _ => False
  | x :: w, t => ps.Starts x t ∨ ps.SymbolNullable x ∧ WordStarts ps w t

theorem wordStarts_append {v w : List Symbol} :
  ps.WordStarts (v ++ w) t ↔
    ps.WordStarts v t ∨ (∀ x ∈ v, ps.SymbolNullable x) ∧ ps.WordStarts w t
  := by
  induction v with
  | nil => simp [WordStarts]
  | cons x v ih =>
    rw [List.cons_append, WordStarts, WordStarts, ih, List.forall_mem_cons]
    tauto

/-- A word of several words starts with what one of them starts with. -/
theorem exists_of_wordStarts_flatten {ws : List (List Symbol)} (h : ps.WordStarts ws.flatten t) :
  ∃ w ∈ ws, ps.WordStarts w t
  := by
  induction ws with
  | nil => apply h.elim
  | cons w ws ih =>
    rw [List.flatten_cons] at h
    obtain h | ⟨_, h⟩ := wordStarts_append.mp h
    · exact ⟨w, List.mem_cons_self, h⟩
    · obtain ⟨v, hv, h⟩ := ih h
      exact ⟨v, List.mem_cons_of_mem w hv, h⟩

mutual

/-- A proper rule that denotes a word of symbols that may be passed over is nullable. -/
theorem nullable_of_denotes : ∀ {r : Rule} {w : List Symbol}, r.isProper → r.Denotes w →
    (∀ x ∈ w, ps.SymbolNullable x) →
  ps.Nullable r
  | .terminal .., _, _, h, hw => by
      rw [Rule.denotes_terminal.mp h] at hw
      apply (hw _ List.mem_cons_self).elim
  | .nonterminal .., _, _, h, hw => by
      rw [Rule.denotes_nonterminal.mp h] at hw
      apply nullable_nonterminal.mpr (hw _ List.mem_cons_self)
  | .unresolved .., _, _, _, _ => nullable_unresolved
  | .concat _ rs, _, hr, h, hw => by
      obtain ⟨hne, hrs⟩ := Rule.isProper_concat.mp hr
      apply nullable_concat.mpr ⟨hne, nullable_of_seqDenotes hrs h hw⟩
  | .choice _ rs, _, hr, h, hw => by
      obtain ⟨q, hq, h⟩ := Rule.denotes_choice.mp h
      apply nullable_choice.mpr ⟨q, hq, nullable_of_mem (Rule.isProper_choice.mp hr).2 q hq h hw⟩
  | .option .., _, _, _, _ => nullable_option
  | .zeroOrMore .., _, _, _, _ => nullable_zeroOrMore
  | .oneOrMore _ r, _, hr, h, hw => by
      obtain ⟨v, hv, v', _, rfl⟩ := Rule.denotes_oneOrMore.mp h
      apply nullable_oneOrMore.mpr (nullable_of_denotes (Rule.isProper_oneOrMore.mp hr) hv
        fun x hx => hw x (List.mem_append_left v' hx))

/-- Proper rules that denote a word of symbols that may be passed over are nullable. -/
theorem nullable_of_seqDenotes : ∀ {rs : List Rule} {w : List Symbol}, (∀ r ∈ rs, r.isProper) →
    Rule.SeqDenotes rs w → (∀ x ∈ w, ps.SymbolNullable x) →
  ∀ r ∈ rs, ps.Nullable r
  | [], _, _, _, _ => by simp
  | q :: rs, _, hrs, h, hw => by
      obtain ⟨hq, hrs⟩ := List.forall_mem_cons.mp hrs
      obtain ⟨v, hv, v', hv', rfl⟩ := Rule.seqDenotes_cons.mp h
      rw [List.forall_mem_cons]
      constructor
      · apply nullable_of_denotes hq hv
        intro x hx
        apply hw x (List.mem_append_left v' hx)
      · apply nullable_of_seqDenotes hrs hv'
        intro x hx
        apply hw x (List.mem_append_right v hx)

theorem nullable_of_mem : ∀ {rs : List Rule} {w : List Symbol}, (∀ r ∈ rs, r.isProper) →
  ∀ r ∈ rs, r.Denotes w → (∀ x ∈ w, ps.SymbolNullable x) → ps.Nullable r
  | [], _, _ => fun _ hr => absurd hr List.not_mem_nil
  | q :: rs, _, hrs => by
      obtain ⟨hq, hrs⟩ := List.forall_mem_cons.mp hrs
      intro r hr h hw
      obtain hrq | hr := List.mem_cons.mp hr
      · rw [hrq] at h ⊢
        apply nullable_of_denotes hq h hw
      · apply nullable_of_mem hrs r hr h hw

end

mutual

/-- A proper rule begins with the terminals that the words it denotes start with. -/
theorem begins_of_denotes : ∀ {r : Rule} {w : List Symbol}, r.isProper → r.Denotes w →
    ps.WordStarts w t →
  ps.Begins r t
  | .terminal .., _, _, h, hw => by
      rw [Rule.denotes_terminal.mp h] at hw
      simpa [WordStarts] using hw
  | .nonterminal .., _, _, h, hw => by
      rw [Rule.denotes_nonterminal.mp h] at hw
      simpa [WordStarts] using hw
  | .unresolved .., _, hr, _, _ => absurd hr Rule.not_isProper_unresolved
  | .concat _ rs, _, hr, h, hw =>
      begins_concat.mpr (seqBegins_of_seqDenotes (Rule.isProper_concat.mp hr).2 h hw)
  | .choice _ rs, _, hr, h, hw => by
      obtain ⟨q, hq, h⟩ := Rule.denotes_choice.mp h
      apply begins_choice.mpr ⟨q, hq, begins_of_mem (Rule.isProper_choice.mp hr).2 q hq h hw⟩
  | .option _ r, _, hr, h, hw => by
      obtain rfl | h := Rule.denotes_option.mp h
      · apply hw.elim
      · apply begins_option.mpr (begins_of_denotes (Rule.isProper_option.mp hr) h hw)
  | .zeroOrMore _ r, _, hr, h, hw => by
      obtain ⟨ws, rfl, hs⟩ := Rule.denotes_zeroOrMore.mp h
      obtain ⟨v, hv, hw⟩ := exists_of_wordStarts_flatten hw
      apply begins_zeroOrMore.mpr (begins_of_denotes (Rule.isProper_zeroOrMore.mp hr) (hs v hv) hw)
  | .oneOrMore _ r, _, hr, h, hw => by
      have hr := Rule.isProper_oneOrMore.mp hr
      obtain ⟨v, hv, v', hv', rfl⟩ := Rule.denotes_oneOrMore.mp h
      apply begins_oneOrMore.mpr
      obtain hw | ⟨_, hw⟩ := wordStarts_append.mp hw
      · apply begins_of_denotes hr hv hw
      · obtain ⟨ws, rfl, hs⟩ := Rule.denotes_zeroOrMore.mp hv'
        obtain ⟨v, hv, hw⟩ := exists_of_wordStarts_flatten hw
        apply begins_of_denotes hr (hs v hv) hw

/-- A sequence of proper rules begins with the terminals that the words it denotes start with. -/
theorem seqBegins_of_seqDenotes : ∀ {rs : List Rule} {w : List Symbol}, (∀ r ∈ rs, r.isProper) →
    Rule.SeqDenotes rs w → ps.WordStarts w t →
  ps.SeqBegins rs t
  | [], _, _, h, hw => by
      rw [Rule.seqDenotes_nil.mp h] at hw
      apply hw.elim
  | q :: rs, _, hrs, h, hw => by
      obtain ⟨hq, hrs⟩ := List.forall_mem_cons.mp hrs
      obtain ⟨v, hv, v', hv', rfl⟩ := Rule.seqDenotes_cons.mp h
      apply seqBegins_cons.mpr
      obtain hw | ⟨hn, hw⟩ := wordStarts_append.mp hw
      · exact .inl (begins_of_denotes hq hv hw)
      · exact .inr ⟨nullable_of_denotes hq hv hn, seqBegins_of_seqDenotes hrs hv' hw⟩

theorem begins_of_mem : ∀ {rs : List Rule} {w : List Symbol}, (∀ r ∈ rs, r.isProper) →
  ∀ r ∈ rs, r.Denotes w → ps.WordStarts w t → ps.Begins r t
  | [], _, _ => fun _ hr => absurd hr List.not_mem_nil
  | q :: rs, _, hrs => by
      obtain ⟨hq, hrs⟩ := List.forall_mem_cons.mp hrs
      intro r hr h hw
      obtain hrq | hr := List.mem_cons.mp hr
      · rw [hrq] at h ⊢
        apply begins_of_denotes hq h hw
      · apply begins_of_mem hrs r hr h hw

end

/-- A word that is rewritten to one that starts with a terminal starts with it. -/
theorem Rewrites.wordStarts {v w : List Symbol} (hps : ps.Proper) (h : ps.Rewrites v w)
    (hw : ps.WordStarts w t) :
  ps.WordStarts v t
  := by
  obtain ⟨a, b, hr, hd⟩ := h
  have hp := hps _ _ hr
  apply wordStarts_append.mpr
  obtain h | ⟨ha, h⟩ := wordStarts_append.mp hw
  · exact .inl h
  · apply Or.inr
    use ha
    obtain h | ⟨hn, h⟩ := wordStarts_append.mp h
    · exact .inl (starts_nonterminal.mpr ⟨_, hr, begins_of_denotes hp hd h⟩)
    · exact .inr ⟨⟨_, hr, nullable_of_denotes hp hd hn⟩, h⟩

/-- The symbols of a word that is rewritten to one of symbols that may be passed over may be passed
over. -/
theorem Rewrites.symbolNullable {v w : List Symbol} (hps : ps.Proper) (h : ps.Rewrites v w)
    (hw : ∀ x ∈ w, ps.SymbolNullable x) :
  ∀ x ∈ v, ps.SymbolNullable x
  := by
  obtain ⟨a, b, hr, hd⟩ := h
  simp only [List.forall_mem_append, List.forall_mem_cons] at hw ⊢
  obtain ⟨ha, hn, hb⟩ := hw
  exact ⟨ha, ⟨_, hr, nullable_of_denotes (hps _ _ hr) hd hn⟩, hb⟩

/-- A word that derives one that begins with a terminal starts with it. -/
theorem Derives.wordStarts {v w : List Symbol} (hps : ps.Proper)
    (h : ps.Derives v (.terminal t :: w)) :
  ps.WordStarts v t
  := by
  induction h using Relation.ReflTransGen.head_induction_on with
  | refl => exact .inl (.terminal t)
  | head h _ ih => apply h.wordStarts hps ih

/-- The symbols of a word that derives the empty one may be passed over. -/
theorem Derives.symbolNullable {v : List Symbol} (hps : ps.Proper) (h : ps.Derives v []) :
  ∀ x ∈ v, ps.SymbolNullable x
  := by
  induction h using Relation.ReflTransGen.head_induction_on with
  | refl => simp
  | head h _ ih => apply h.symbolNullable hps ih

/-- A proper rule is nullable if it derives the empty word, and only then. -/
theorem nullable_iff_canVanish (hps : ps.Proper) (hr : r.isProper) :
  ps.Nullable r ↔ ps.CanVanish r
  := by
  constructor
  · intro h
    apply h.canVanish hps hr
  · rintro ⟨w, hw, h⟩
    apply nullable_of_denotes hr hw (h.symbolNullable hps)

/-- A proper rule begins with the terminals that the words it derives begin with. -/
theorem begins_iff_canBegin (hps : ps.Proper) (hr : r.isProper) :
  ps.Begins r t ↔ ps.CanBegin r t
  := by
  constructor
  · intro h
    apply h.canBegin hps hr
  · rintro ⟨w, hw, v, h⟩
    apply begins_of_denotes hr hw (h.wordStarts hps)

/-- A nonterminal is nullable if it derives the empty word, and only then. -/
theorem symbolNullable_iff_derives (hps : ps.Proper) {n : NonterminalId} :
  ps.SymbolNullable (.nonterminal n) ↔ ps.Derives [.nonterminal n] []
  := by
  constructor
  · rintro ⟨r, hr, h⟩
    obtain ⟨w, hw, h⟩ := h.canVanish hps (hps n r hr)
    apply Derives.of_alternative hr hw h
  · intro h
    apply h.symbolNullable hps _ List.mem_cons_self

/-- A symbol starts with the terminals that the words it derives begin with. -/
theorem starts_iff_derives (hps : ps.Proper) :
  ps.Starts x t ↔ ∃ v, ps.Derives [x] (.terminal t :: v)
  := by
  constructor
  · intro h
    apply h.derives hps
  · rintro ⟨v, h⟩
    simpa [WordStarts] using h.wordStarts hps

end Productions

end Descent
