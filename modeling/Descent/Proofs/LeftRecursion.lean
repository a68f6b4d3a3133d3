import Descent.Pattern.Compiled
import Descent.Proofs.Compilation

/-!
# Left recursion is detected exactly

The analysis of a grammar ends, without ever exploring deeper than it has nonterminals, and reports
a left recursion if some nonterminal is left recursive, and only then.  A text whose grammar has a
left recursive nonterminal has no interpreter.
-/

namespace Descent

namespace FirstSets

variable (g : Grammar)

/-- The diagnostic of a left recursive nonterminal. -/
def leftRecursionDiagnostic (n : NonterminalId) : Diagnostic :=
  (Problem.leftRecursion (g.nonterminal n).name).located (g.nonterminal n).span

/-- The diagnostics of the analysis are those of the nonterminals that the survey reports. -/
theorem diagnostics_ofGrammar :
  (ofGrammar g).diagnostics = (Survey.ofGrammar g).leftRecursive.map (leftRecursionDiagnostic g)
  := by
  rw [diagnostics, ofGrammar, List.map_map]
  rfl

/-- A left recursive nonterminal is one of the grammar. -/
theorem mem_nonterminalIds_of_leftRecursive {n : NonterminalId}
    (h : g.productions.LeftRecursive n) :
  n ∈ g.nonterminalIds
  := by
  obtain ⟨m, ⟨r, hr, _⟩, _⟩ := Relation.TransGen.head'_iff.mp h
  apply Grammar.mem_nonterminalIds.mpr (Grammar.lt_size_of_mem_productions hr)

/-- The survey ends before its depth runs out, so that it does not matter what is done then.  There
are diagnostics if a nonterminal is left recursive, and only then; each is that of a left recursive
nonterminal of the grammar, and no nonterminal is reported twice.  No text with a left recursive
nonterminal has an interpreter. -/
theorem leftRecursion_detected [Engine] :
  (∀ stop, Survey.ofGrammarOr stop g = Survey.ofGrammar g) ∧
    ((ofGrammar g).diagnostics ≠ [] ↔ ∃ n, g.productions.LeftRecursive n) ∧
    (∃ ns : List NonterminalId, ns.Nodup ∧
      (∀ n ∈ ns, n ∈ g.nonterminalIds ∧ g.productions.LeftRecursive n) ∧
      (ofGrammar g).diagnostics = ns.map (leftRecursionDiagnostic g)) ∧
    ∀ fs o text file, (Compilation.ofText fs o text file).grammar? = some g →
      (∃ n, g.productions.LeftRecursive n) →
      (Compilation.ofText fs o text file).interpreter? = none
  := by
  have hiff : (ofGrammar g).diagnostics ≠ [] ↔ ∃ n, g.productions.LeftRecursive n := by
    rw [ne_eq, diagnostics_eq_nil_iff, not_forall]
    simp only [not_not]
  refine ⟨fun stop => Survey.ofGrammarOr_eq stop g, hiff, ?_, ?_⟩
  · have hv := Survey.valid_ofGrammar g
    use (Survey.ofGrammar g).leftRecursive, hv.nodup_leftRecursive
    constructor
    · intro n hn
      have hr := hv.leftRecursive n hn
      exact ⟨mem_nonterminalIds_of_leftRecursive g hr, hr⟩
    · apply diagnostics_ofGrammar
  · intro fs o text file hg hn
    rw [Option.eq_none_iff_forall_ne_some]
    intro i hi
    have hc := Compilation.compiled_of_interpreter? hi
    rw [Compilation.grammar?_of_interpreter? hi] at hg
    cases hg
    apply hiff.mpr hn hc.diagnostics

/-- A text whose start begins with itself. -/
def selfFirst : Compilation := .ofText (.bare []) ⟨⟨"."⟩, ⟨"."⟩⟩ "Start -> Start 'a';" ""

/-- The text has a grammar, but no interpreter. -/
theorem interpreter?_selfFirst :
  selfFirst.grammar?.isSome ∧ selfFirst.interpreter? = none
  := by
  have h : selfFirst.grammar?.any fun g => (ofGrammar g).diagnostics ≠ [] := by decide +kernel
  obtain ⟨g, hg, hd⟩ := (Option.any_eq_true _ _).mp h
  obtain ⟨-, hiff, -, hnone⟩ := leftRecursion_detected g
  exact ⟨Option.isSome_of_eq_some hg, hnone _ _ _ _ hg (hiff.mp (of_decide_eq_true hd))⟩

end FirstSets

end Descent
