import Descent.Compilation
import Descent.Proofs.Body
import Descent.Proofs.FirstSets

/-!
# Compilations that find nothing wrong

An interpreter runs the program of a well-formed grammar none of whose nonterminals is left
recursive (`Interpreter.Compiled`), and a text whose grammar has a left recursive nonterminal has no
interpreter.
-/

namespace Descent

/-! ### FIRST sets of alike grammars -/

section

variable {g g' : Grammar}

theorem Grammar.nonterminal_congr (h : g'.nonterminals = g.nonterminals) :
  g'.nonterminal = g.nonterminal
  := by
  funext n
  rw [Grammar.nonterminal, h, Grammar.nonterminal]

theorem Survey.explore_congr (h : g'.nonterminals = g.nonterminals) (depth : Nat) :
  explore g' depth = explore g depth
  := by
  induction depth with
  | zero => rfl
  | succ depth ih =>
    funext n
    rw [explore, explore, ih, Grammar.nonterminal_congr h]

/-- The FIRST sets depend on the nonterminals only. -/
theorem FirstSets.ofGrammar_congr (h : g'.nonterminals = g.nonterminals) :
  ofGrammar g' = ofGrammar g
  := by
  unfold ofGrammar Survey.ofGrammar Grammar.nonterminalIds
  rw [Grammar.nonterminal_congr h, h, Survey.explore_congr h]

end

/-! ### Completing a grammar -/

namespace Grammar

variable (g : Grammar) (o : Options)

theorem terminals_prepare :
  (g.prepare o).terminals = g.terminals
  := by rw [prepare, keepFirstSets, updateDirectives]

theorem nonterminals_prepare :
  (g.prepare o).nonterminals = g.nonterminals
  := by rw [prepare, keepFirstSets, updateDirectives]

theorem names_prepare :
  (g.prepare o).names = g.names
  := by rw [prepare, keepFirstSets, updateDirectives]

theorem productions_prepare :
  (g.prepare o).productions = g.productions
  := by
  funext n
  rw [productions, nonterminal_congr (nonterminals_prepare g o), productions]

theorem has_prepare (x : Symbol) :
  (g.prepare o).Has x ↔ g.Has x
  := by cases x <;> rw [Has, Has] <;> simp only [terminals_prepare, nonterminals_prepare]

variable {g}

/-- A grammar that is completed keeps FIRST sets that are right. -/
theorem firstSets_prepare (hg : g.cached = none) :
  (g.prepare o).firstSets = FirstSets.ofGrammar (g.prepare o)
  := by
  have hc : (g.updateDirectives (·.withDefaults o)).cached = none := by rw [updateDirectives, hg]
  rw [FirstSets.ofGrammar_congr (nonterminals_prepare g o), prepare, firstSets_keepFirstSets,
    firstSets, hc, Option.getD_none]
  apply FirstSets.ofGrammar_congr
  rw [updateDirectives]

theorem WellFormed.prepare (h : g.WellFormed) :
  (g.prepare o).WellFormed
  := by
  constructor
  · rw [productions_prepare]
    apply h.proper
  · simp only [productions_prepare, has_prepare]
    apply h.has
  · simp only [productions_prepare, has_prepare]
    apply h.inhabited
  · intro n hn
    rw [has_prepare]
    apply h.start
    rwa [start?, nonterminal?, lookup?, names_prepare] at hn

end Grammar

/-! ### Interpreters -/

/-- A program that was made of a well-formed grammar without left recursion. -/
structure Interpreter.Compiled (i : Interpreter) : Prop where
  wellFormed : i.grammar.WellFormed
  program : i.program = i.grammar.program
  firstSets : i.grammar.firstSets = FirstSets.ofGrammar i.grammar
  diagnostics : (FirstSets.ofGrammar i.grammar).diagnostics = []

namespace Compilation

variable {fs : FileSystem} {o : Options} {text file : String} {g : Grammar} {i : Interpreter}

/-- The grammar of a text is that of its description, completed; its diagnostics are those of the
description and those of the FIRST sets. -/
theorem exists_of_grammar? [Engine] (h : (ofText fs o text file).grammar? = some g) :
  ∃ g₀ ds, (∀ p ∈ (Description.parse text file).1.productions, p.rhs.IsFull) ∧
    Grammar.ofDescription o fs (Description.parse text file).1 = (some g₀, ds) ∧
    g = g₀.prepare o ∧ g₀.cached = none ∧
    (ofText fs o text file).product? = some ⟨g, g.program⟩ ∧
    (ofText fs o text file).diagnostics = ds ++ (FirstSets.ofGrammar g).diagnostics
  := by
  have hfull := Description.parse_isFull text file
  rw [ofText] at h ⊢
  split at h
  · cases h
  · next desc hdesc =>
    rw [hdesc] at hfull ⊢
    dsimp only at h ⊢
    split at h
    · cases h
    · next g₀ ds hg₀ =>
      rw [grammar?, Option.map_some, Option.some_inj, Product.ofGrammar] at h
      subst h
      have hc := (Grammar.closed_of_ofDescription hfull hg₀).cached
      refine ⟨g₀, ds, hfull, hg₀, rfl, hc, by rw [Product.ofGrammar], ?_⟩
      rw [FirstSets.ofGrammar_congr (Grammar.nonterminals_prepare g₀ o), Grammar.firstSets, hc,
        Option.getD_none]

theorem product?_of_interpreter? [Engine] (h : (ofText fs o text file).interpreter? = some i) :
  (ofText fs o text file).product? = some ⟨i.grammar, i.program⟩ ∧
    (ofText fs o text file).diagnostics = []
  := by
  obtain ⟨p, hp, rfl⟩ := Option.map_eq_some_iff.mp h
  unfold sound? at hp
  split at hp
  case isTrue hd => exact ⟨hp, List.isEmpty_iff.mp hd⟩
  case isFalse => cases hp

theorem grammar?_of_interpreter? [Engine] (h : (ofText fs o text file).interpreter? = some i) :
  (ofText fs o text file).grammar? = some i.grammar
  := by rw [grammar?, (product?_of_interpreter? h).1, Option.map_some]

/-- An interpreter of a text runs the program of a well-formed grammar without left recursion. -/
theorem compiled_of_interpreter? [Engine] (h : (ofText fs o text file).interpreter? = some i) :
  i.Compiled
  := by
  obtain ⟨hi, hd⟩ := product?_of_interpreter? h
  obtain ⟨g₀, ds, hfull, hg₀, hg, hc, hp, hds⟩ := exists_of_grammar? (grammar?_of_interpreter? h)
  rw [hds, List.append_eq_nil_iff] at hd
  obtain ⟨rfl, hd⟩ := hd
  constructor
  · rw [hg]
    apply (Grammar.wellFormed_of_ofDescription hfull hg₀).prepare o
  · rw [hi] at hp
    injection hp with hp
    injection hp with _ hp
  · rw [hg]
    apply Grammar.firstSets_prepare o hc
  · apply hd

end Compilation

end Descent
