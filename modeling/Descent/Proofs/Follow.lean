import Descent.Proofs.Yield

/-!
# LL(1) grammars

What may come after a place in a rule is read off from the rules that are pending there
(`Productions.Pending`): a terminal follows a place that is reached from the nonterminal to start
with if it begins what is derived from the pending rules, or, where they derive the empty word, if
it follows a place where the nonterminal is referred to (`Productions.Follows`).

In an LL(1) grammar the next terminal decides between alternatives, and between taking and leaving
an operand (`Grammar.IsLL1`).
-/

namespace Descent

namespace Productions

variable {ps : Productions}

/-! ### Places in rules -/

/-- The rules that are pending at a place in an alternative of a nonterminal: the one at this place
and, one after the other, those that come after it up to the end of the alternative.  The operand of
a repetition comes before further rounds of it. -/
inductive Pending (ps : Productions) (n : NonterminalId) : List Rule → Prop
  | alternative {r : Rule} (hr : r ∈ ps n) : Pending ps n [r]
  | next {r : Rule} {rs : List Rule} (h : Pending ps n (r :: rs)) : Pending ps n rs
  | concat {id : RuleId} {qs rs : List Rule} (h : Pending ps n (.concat id qs :: rs)) :
      Pending ps n (qs ++ rs)
  | choice {id : RuleId} {r : Rule} {qs rs : List Rule} (hr : r ∈ qs)
      (h : Pending ps n (.choice id qs :: rs)) : Pending ps n (r :: rs)
  | option {id : RuleId} {r : Rule} {rs : List Rule} (h : Pending ps n (.option id r :: rs)) :
      Pending ps n (r :: rs)
  | zeroOrMore {id : RuleId} {r : Rule} {rs : List Rule}
      (h : Pending ps n (.zeroOrMore id r :: rs)) : Pending ps n (r :: .zeroOrMore id r :: rs)
  | oneOrMore {id : RuleId} {r : Rule} {rs : List Rule}
      (h : Pending ps n (.oneOrMore id r :: rs)) : Pending ps n (r :: .zeroOrMore id r :: rs)

/-- The nonterminals that are reached from a nonterminal through the rules. -/
inductive Reached (ps : Productions) (start : NonterminalId) : NonterminalId → Prop
  | start : Reached ps start start
  | call {m n : NonterminalId} {id : RuleId} {rs : List Rule} (hm : Reached ps start m)
      (h : Pending ps m (.nonterminal id n :: rs)) : Reached ps start n

/-- The terminals that may follow where the given rules are pending in an alternative of a
nonterminal.  With no rules pending they are those that may follow the nonterminal. -/
inductive Follows (ps : Productions) (start : NonterminalId) :
    NonterminalId → List Rule → TerminalId → Prop
  | begins {n : NonterminalId} {rs : List Rule} {t : TerminalId} {w : List Symbol}
      (hn : Reached ps start n) (h : ps.SeqDerives rs (.terminal t :: w)) : Follows ps start n rs t
  | ends {m n : NonterminalId} {id : RuleId} {qs rs : List Rule} {t : TerminalId}
      (hv : ps.SeqDerives rs []) (hm : Pending ps m (.nonterminal id n :: qs))
      (h : Follows ps start m qs t) : Follows ps start n rs t

variable {start n : NonterminalId} {rs qs : List Rule} {r : Rule} {t : TerminalId}

/-- Pending rules are proper if all alternatives are. -/
theorem Pending.proper (h : ps.Pending n rs) (hps : ps.Proper) :
  ∀ r ∈ rs, r.isProper
  := by
  induction h with
  | alternative hr =>
    rw [List.forall_mem_singleton]
    apply hps n _ hr
  | next _ ih => apply (List.forall_mem_cons.mp ih).2
  | concat _ ih =>
    obtain ⟨hc, hrs⟩ := List.forall_mem_cons.mp ih
    apply List.forall_mem_append.mpr ⟨(Rule.isProper_concat.mp hc).2, hrs⟩
  | choice hr _ ih =>
    obtain ⟨hc, hrs⟩ := List.forall_mem_cons.mp ih
    exact List.forall_mem_cons.mpr ⟨(Rule.isProper_choice.mp hc).2 _ hr, hrs⟩
  | option _ ih =>
    obtain ⟨hc, hrs⟩ := List.forall_mem_cons.mp ih
    exact List.forall_mem_cons.mpr ⟨Rule.isProper_option.mp hc, hrs⟩
  | zeroOrMore _ ih =>
    obtain ⟨hc, hrs⟩ := List.forall_mem_cons.mp ih
    exact List.forall_mem_cons.mpr ⟨Rule.isProper_zeroOrMore.mp hc, ih⟩
  | oneOrMore _ ih =>
    obtain ⟨hc, hrs⟩ := List.forall_mem_cons.mp ih
    have hr := Rule.isProper_oneOrMore.mp hc
    exact List.forall_mem_cons.mpr
      ⟨hr, List.forall_mem_cons.mpr ⟨Rule.isProper_zeroOrMore.mpr hr, hrs⟩⟩

/-! ### What comes after a place -/

/-- A word of terminals that is yielded from a place on: by the pending rules, and then, from where
the nonterminal is referred to, in the same way. -/
inductive Continues (ps : Productions) (start : NonterminalId) :
    NonterminalId → List Rule → List TerminalId → Prop
  | last {rs : List Rule} {w : List TerminalId} (h : ps.Yields rs w) : Continues ps start start rs w
  | call {m n : NonterminalId} {id : RuleId} {qs rs : List Rule} {v w : List TerminalId}
      (hv : ps.Yields rs v) (hm : Pending ps m (.nonterminal id n :: qs))
      (h : Continues ps start m qs w) : Continues ps start n rs (v ++ w)

variable {v w : List TerminalId}

theorem Continues.reached (h : ps.Continues start n rs w) :
  ps.Reached start n
  := by
  induction h with
  | last _ => exact .start
  | call _ hm _ ih => exact .call ih hm

/-- What rules yield goes before what is yielded after them. -/
theorem Continues.append (h : ps.Continues start n rs w) (hv : ps.Yields qs v) :
  ps.Continues start n (qs ++ rs) (v ++ w)
  := by
  cases h with
  | last h => exact .last (yields_append.mpr ⟨v, hv, w, h, rfl⟩)
  | call hu hm h =>
    rw [← List.append_assoc]
    exact .call (yields_append.mpr ⟨v, hv, _, hu, rfl⟩) hm h

/-- The first terminal of what is yielded from a place on follows there. -/
theorem Continues.follows (h : ps.Continues start n rs (t :: w)) :
  ps.Follows start n rs t
  := by
  generalize hu : t :: w = u at h
  induction h generalizing w with
  | last h =>
    rw [← hu] at h
    exact .begins .start h.derives
  | @call m n id qs rs v w' hv hm h ih =>
    match v, hu with
    | [], hu => exact .ends hv.derives hm (ih hu)
    | t' :: v, hu =>
      cases hu
      exact .begins (.call h.reached hm) hv.derives

/-! ### Deciding by one terminal -/

/-- Alternatives that one terminal tells apart: none derives the empty word, and no two derive words
that begin with the same terminal. -/
def Apart (ps : Productions) (rs : List Rule) : Prop :=
  (∀ r ∈ rs, ¬ ps.CanVanish r) ∧ rs.Pairwise fun r q => ∀ t, ps.CanBegin r t → ¬ ps.CanBegin q t

theorem Yields.canBegin (h : ps.Yields [r] (t :: w)) :
  ps.CanBegin r t
  := by
  obtain ⟨v, hv, h⟩ := seqDerives_singleton.mp h.derives
  exact ⟨v, hv, _, h⟩

theorem Yields.canVanish (h : ps.Yields [r] []) :
  ps.CanVanish r
  := seqDerives_singleton.mp h.derives

/-- Alternatives that are told apart yield words that begin with some terminal. -/
theorem Apart.exists_cons (h : ps.Apart rs) (hr : r ∈ rs) (hv : ps.Yields [r] v) :
  ∃ t w, v = t :: w ∧ ps.CanBegin r t
  := by
  cases v with
  | nil => exact absurd hv.canVanish (h.1 r hr)
  | cons t w => exact ⟨t, w, rfl, hv.canBegin⟩

end Productions

/-- In an LL(1) grammar no rule refers to a terminal that is skipped, one terminal tells the
alternatives of every choice and of every nonterminal apart, and none that may begin the operand of
an option or a repetition may follow it. -/
structure Grammar.IsLL1 (g : Grammar) (start : NonterminalId) : Prop where
  visible : ∀ n, ∀ t ∈ g.skip, Symbol.terminal t ∉ Rule.symbolsAll (g.productions n)
  alternatives : ∀ n, 2 ≤ (g.productions n).length → g.productions.Apart (g.productions n)
  choice : ∀ {n id qs rs}, g.productions.Pending n (.choice id qs :: rs) → g.productions.Apart qs
  option : ∀ {n id r rs t}, g.productions.Pending n (.option id r :: rs) →
    g.productions.CanBegin r t → ¬ g.productions.Follows start n rs t
  zeroOrMore : ∀ {n id r rs t}, g.productions.Pending n (.zeroOrMore id r :: rs) →
    g.productions.CanBegin r t → ¬ g.productions.Follows start n rs t
  oneOrMore : ∀ {n id r rs t}, g.productions.Pending n (.oneOrMore id r :: rs) →
    g.productions.CanBegin r t → ¬ g.productions.Follows start n rs t

end Descent
