import Descent.Proofs.Survey

/-!
# FIRST sets are exact

Of a grammar whose rules are proper, the set of a nonterminal, and of any proper rule, never claims
too much, and if no nonterminal is left recursive it claims no less than derivations say.
-/

namespace Descent

namespace FirstSets

variable (g : Grammar)

theorem diagnostics_ofGrammar_iff :
  (ofGrammar g).diagnostics = [] ↔ (Survey.ofGrammar g).IsClean
  := by
  rw [diagnostics, List.map_eq_nil_iff]
  apply List.map_eq_nil_iff

/-- There are no diagnostics if no nonterminal is left recursive, and only then. -/
theorem diagnostics_eq_nil_iff :
  (ofGrammar g).diagnostics = [] ↔ ∀ n, ¬ g.productions.LeftRecursive n
  := by rw [diagnostics_ofGrammar_iff, Survey.isClean_ofGrammar_iff]

/-- The set of a nonterminal is what the survey of the grammar knows of it. -/
theorem of_ofGrammar {n : NonterminalId} (hn : n ∈ g.nonterminalIds) :
  (ofGrammar g).of n = (Survey.ofGrammar g).known n
  := by
  have h := Grammar.mem_nonterminalIds.mp hn
  simp [of, ofGrammar, Grammar.nonterminalIds, h]

theorem of_ofGrammar_of_notMem {n : NonterminalId} (hn : n ∉ g.nonterminalIds) :
  (ofGrammar g).of n = .none
  := by
  have h := Grammar.mem_nonterminalIds.not.mp hn
  simp only [not_lt] at h
  simp [of, ofGrammar, Grammar.nonterminalIds, h]

theorem nonterminalFits_of (n : NonterminalId) :
  g.productions.NonterminalFits ((ofGrammar g).diagnostics = []) n ((ofGrammar g).of n)
  := by
  rw [diagnostics_ofGrammar_iff]
  by_cases hn : n ∈ g.nonterminalIds
  · rw [of_ofGrammar g hn]
    apply (Survey.valid_ofGrammar g).known
    intro hc
    apply Survey.finished_ofGrammar g hc hn
  · rw [of_ofGrammar_of_notMem g hn, Productions.NonterminalFits, Grammar.productions_eq_nil hn]
    apply Productions.choiceFits_nil

theorem fits_ofRule (r : Rule) :
  g.productions.Fits ((ofGrammar g).diagnostics = []) r ((ofGrammar g).ofRule r)
  := Productions.fits_first (nonterminalFits_of g) r

/-- The sets of a grammar with proper rules are exact if there are no diagnostics: the terminals of
the set of a nonterminal, or of a proper rule, are those that what it derives begins with, and the
set may be empty if the empty word is derived.  With diagnostics the sets still claim no more. -/
theorem sets_exact {g : Grammar} (hps : g.productions.Proper) :
  ((ofGrammar g).diagnostics = [] →
    (∀ n, (∀ t, t ∈ ((ofGrammar g).of n).terminals ↔
          ∃ v, g.productions.Derives [.nonterminal n] (.terminal t :: v)) ∧
        (((ofGrammar g).of n).empty ↔ g.productions.Derives [.nonterminal n] [])) ∧
      ∀ r : Rule, r.isProper →
        (∀ t, t ∈ ((ofGrammar g).ofRule r).terminals ↔ g.productions.CanBegin r t) ∧
          (((ofGrammar g).ofRule r).empty ↔ g.productions.CanVanish r)) ∧
    (∀ n, (∀ t ∈ ((ofGrammar g).of n).terminals,
          ∃ v, g.productions.Derives [.nonterminal n] (.terminal t :: v)) ∧
        (((ofGrammar g).of n).empty → g.productions.Derives [.nonterminal n] [])) ∧
      ∀ r : Rule, r.isProper →
        (∀ t ∈ ((ofGrammar g).ofRule r).terminals, g.productions.CanBegin r t) ∧
          (((ofGrammar g).ofRule r).empty → g.productions.CanVanish r)
  := by
  have hn : ∀ n, FirstSet.Fits ((ofGrammar g).diagnostics = [])
      (g.productions.Derives [.nonterminal n] [])
      (fun t => ∃ v, g.productions.Derives [.nonterminal n] (.terminal t :: v))
      ((ofGrammar g).of n) := by
    intro n
    apply (nonterminalFits_of g n).congr
    · apply (Productions.symbolNullable_iff_derives hps).symm
    · intro t
      rw [← Productions.starts_iff_derives hps, Productions.starts_nonterminal]
  have hr : ∀ r : Rule, r.isProper → FirstSet.Fits ((ofGrammar g).diagnostics = [])
      (g.productions.CanVanish r) (g.productions.CanBegin r) ((ofGrammar g).ofRule r) := by
    intro r hr
    apply (fits_ofRule g r).congr
    · apply (Productions.nullable_iff_canVanish hps hr).symm
    · intro t
      apply (Productions.begins_iff_canBegin hps hr).symm
  constructor
  · intro hd
    exact ⟨fun n => ⟨(hn n).mem_iff hd, (hn n).empty_iff hd⟩,
      fun r h => ⟨(hr r h).mem_iff hd, (hr r h).empty_iff hd⟩⟩
  · exact ⟨fun n => ⟨(hn n).terminals, (hn n).empty⟩,
      fun r h => ⟨(hr r h).terminals, (hr r h).empty⟩⟩

/-- The grammar `Start -> A 'b'; A -> 'a'?;`. -/
def optionBefore : Grammar :=
  let start := Rule.concat ⟨2⟩ [.nonterminal ⟨0⟩ ⟨1⟩, .terminal ⟨1⟩ ⟨1⟩]
  let a := Rule.option ⟨4⟩ (.terminal ⟨3⟩ ⟨0⟩)
  { Grammar.empty with
    nonterminals :=
      #[{ Nonterminal.bare "Start" .nowhere with alternatives := [start] },
        { Nonterminal.bare "A" .nowhere with alternatives := [a] }] }

/-- What may be left out does not hide what comes after it. -/
theorem optionBefore_derives :
  ∃ v, optionBefore.productions.Derives [.nonterminal ⟨0⟩] (.terminal ⟨1⟩ :: v)
  := by
  have hps : optionBefore.productions.Proper := Productions.proper_iff.mpr (by decide)
  have hd : (ofGrammar optionBefore).diagnostics = [] := by decide +kernel
  exact ((((sets_exact hps).1 hd).1 ⟨0⟩).1 ⟨1⟩).mp (by decide +kernel)

end FirstSets

end Descent
