import Descent.Proofs.Caching

/-!
# Several alternatives mean one choice

A nonterminal that is declared several times has several alternatives.  They may as well be one
choice (`Grammar.mergeAlternatives`).

* The walk over the rules does the same on a choice as on its alternatives, so the FIRST sets, their
  origins and the left recursions stay (`FirstSets.ofGrammar_mergeAlternatives`).
* Statements depend on the FIRST sets and on the names of the terminals (`Program.lower_congr`), and
  two alternatives or more become the same dispatch as a choice
  (`Program.lowerAlternatives_choice`), so the program stays.
* A run depends on the program, the scanner and the names of the symbols
  (`Interpreter.exec_congr`), so every text is parsed as before.
-/

namespace Descent

/-- The grammar in which a choice, with a given id, stands for the alternatives of a nonterminal. -/
def Grammar.mergeAlternatives (g : Grammar) (n : NonterminalId) (id : RuleId) : Grammar :=
  g.updateNonterminal n fun x => { x with alternatives := [.choice id x.alternatives] }

namespace Grammar

variable (g : Grammar) (n : NonterminalId) (id : RuleId)

theorem size_mergeAlternatives :
  (g.mergeAlternatives n id).nonterminals.size = g.nonterminals.size
  := Array.size_modify

/-- Only the alternatives of the nonterminal change. -/
theorem nonterminal_mergeAlternatives (m : NonterminalId) :
  (g.mergeAlternatives n id).nonterminal m = g.nonterminal m ∨
    (g.mergeAlternatives n id).nonterminal m =
      { g.nonterminal m with alternatives := [.choice id (g.nonterminal m).alternatives] } ∧ m = n
  := by
  rw [mergeAlternatives, nonterminal_updateNonterminal]
  split
  case isTrue h => exact .inr ⟨by rw [h.1], h.1⟩
  case isFalse => exact .inl rfl

theorem name_mergeAlternatives (m : NonterminalId) :
  ((g.mergeAlternatives n id).nonterminal m).name = (g.nonterminal m).name
  := by obtain h | ⟨h, -⟩ := nonterminal_mergeAlternatives g n id m <;> rw [h]

theorem span_mergeAlternatives (m : NonterminalId) :
  ((g.mergeAlternatives n id).nonterminal m).span = (g.nonterminal m).span
  := by obtain h | ⟨h, -⟩ := nonterminal_mergeAlternatives g n id m <;> rw [h]

end Grammar

/-! ### FIRST sets -/

namespace FirstSet

theorem either_none (f : FirstSet) :
  f.either .none = f
  := by simp [either, join, FirstSet.none]

end FirstSet

namespace Survey

variable (g : Grammar) (n : NonterminalId) (id : RuleId)

/-- The walk over a single choice is the walk over its alternatives. -/
theorem walkChoice_choice (visit : NonterminalId → StateM Survey Unit) (id : RuleId)
    (rs : List Rule) :
  walkChoice visit [.choice id rs] = walkChoice visit rs
  := by
  funext s
  have hrun : (walkChoice visit [.choice id rs]).run s = _ := run_walkChoice_cons _ [] s
  have hnone := FirstSet.either_none ((walkChoice visit rs).run s).1
  exact hrun.trans (congrArg (·, ((walkChoice visit rs).run s).2) hnone)

/-- Grammars over whose alternatives every walk does the same are explored in the same way. -/
theorem explore_congr_of_walkChoice {g g' : Grammar}
    (h : ∀ visit m, walkChoice visit (g'.nonterminal m).alternatives =
      walkChoice visit (g.nonterminal m).alternatives) (depth : Nat) :
  explore g' depth = explore g depth
  := by
  induction depth with
  | zero => rfl
  | succ depth ih =>
    funext m
    rw [explore, explore, ih, h]

theorem walkChoice_mergeAlternatives (visit : NonterminalId → StateM Survey Unit)
    (m : NonterminalId) :
  walkChoice visit ((g.mergeAlternatives n id).nonterminal m).alternatives =
    walkChoice visit (g.nonterminal m).alternatives
  := by
  obtain h | ⟨h, -⟩ := Grammar.nonterminal_mergeAlternatives g n id m
  · rw [h]
  · rw [h]
    apply walkChoice_choice

end Survey

/-- Merging alternatives changes neither a FIRST set, nor an origin, nor a left recursion. -/
theorem FirstSets.ofGrammar_mergeAlternatives (g : Grammar) (n : NonterminalId) (id : RuleId) :
  ofGrammar (g.mergeAlternatives n id) = ofGrammar g
  := by
  have hids : (g.mergeAlternatives n id).nonterminalIds = g.nonterminalIds := by
    rw [Grammar.nonterminalIds, Grammar.size_mergeAlternatives, Grammar.nonterminalIds]
  have hsurvey : Survey.ofGrammar (g.mergeAlternatives n id) = Survey.ofGrammar g := by
    rw [Survey.ofGrammar, Survey.ofGrammar, hids, Grammar.size_mergeAlternatives,
      Survey.explore_congr_of_walkChoice (Survey.walkChoice_mergeAlternatives g n id)]
  simp only [ofGrammar, hsurvey, hids, Grammar.name_mergeAlternatives,
    Grammar.span_mergeAlternatives]

/-! ### Programs -/

namespace Program

variable {g g' : Grammar} {fs : FirstSets}

theorem dispatchOf_congr (h : g'.terminal = g.terminal) :
  dispatchOf g' = dispatchOf g
  := by
  have hnames : niceName g' = niceName g := by
    funext t
    rw [niceName, niceName, h]
  funext claimed arms
  rw [dispatchOf, dispatchOf, hnames]

mutual

/-- The statements of a rule depend on the FIRST sets and on the terminals. -/
theorem lower_congr (h : g'.terminal = g.terminal) : ∀ r : Rule,
  lower g' fs r = lower g fs r
  | .terminal _ t => by rw [lower, lower, niceName, niceName, h]
  | .nonterminal _ n => by rw [lower, lower]
  | .unresolved .. => by rw [lower, lower]
  | .concat _ rs => by rw [lower, lower, lowerSeq_congr h rs]
  | .choice _ rs => by rw [lower, lower, dispatchOf_congr h, lowerArms_congr h [] rs]
  | .option _ r => by rw [lower, lower, lower_congr h r]
  | .zeroOrMore _ r => by rw [lower, lower, lower_congr h r]
  | .oneOrMore _ r => by rw [lower, lower, lower_congr h r]

/-- The statements of a sequence depend on the FIRST sets and on the terminals. -/
theorem lowerSeq_congr (h : g'.terminal = g.terminal) : ∀ rs : List Rule,
  lowerSeq g' fs rs = lowerSeq g fs rs
  | [] => by rw [lowerSeq, lowerSeq]
  | r :: rs => by rw [lowerSeq, lowerSeq, lower_congr h r, lowerSeq_congr h rs]

/-- The arms of alternatives depend on the FIRST sets and on the terminals. -/
theorem lowerArms_congr (h : g'.terminal = g.terminal) :
    ∀ (claimed : List TerminalId) (rs : List Rule),
  lowerArms g' fs claimed rs = lowerArms g fs claimed rs
  | _, [] => by rw [lowerArms, lowerArms]
  | claimed, r :: rs => by
    rw [lowerArms, lowerArms, lower_congr h r, lowerArms_congr h (claimed ++ _) rs]

end

/-- The statements of alternatives depend on the FIRST sets and on the terminals. -/
theorem lowerAlternatives_congr (h : g'.terminal = g.terminal) (rs : List Rule) :
  lowerAlternatives g' fs rs = lowerAlternatives g fs rs
  := by
  match rs with
  | [] => rfl
  | [r] => apply lower_congr h
  | r :: q :: rs =>
    have harms : lowerArms g' fs [] (r :: q :: rs) = lowerArms g fs [] (r :: q :: rs) :=
      lowerArms_congr h [] _
    simp only [lowerAlternatives, dispatchOf_congr h, harms]

/-- A single choice becomes what its alternatives become, if they are two or more. -/
theorem lowerAlternatives_choice (id : RuleId) {rs : List Rule} (h : 2 ≤ rs.length) :
  lowerAlternatives g fs [.choice id rs] = lowerAlternatives g fs rs
  := by
  match rs with
  | r :: q :: rs => simp only [lowerAlternatives, lower]

end Program

namespace Grammar

variable {g : Grammar} {n : NonterminalId}

theorem firstSets_mergeAlternatives (h : g.Fresh) (n : NonterminalId) (id : RuleId) :
  (g.mergeAlternatives n id).firstSets = g.firstSets
  := by
  have hfresh : (g.mergeAlternatives n id).Fresh := fresh_of_cached_eq_none rfl
  rw [hfresh.firstSets_eq, FirstSets.ofGrammar_mergeAlternatives, h.firstSets_eq]

/-- Merging two alternatives or more changes no routine. -/
theorem program_mergeAlternatives (h : g.Fresh)
    (hn : 2 ≤ (g.nonterminal n).alternatives.length) (id : RuleId) :
  (g.mergeAlternatives n id).program = g.program
  := by
  have hroutine : (g.mergeAlternatives n id).routine = g.routine := by
    funext m
    have hterminal : (g.mergeAlternatives n id).terminal = g.terminal := rfl
    rw [routine, routine, firstSets_mergeAlternatives h, name_mergeAlternatives,
      Program.lowerAlternatives_congr hterminal]
    congr 1
    obtain hm | ⟨hm, rfl⟩ := nonterminal_mergeAlternatives g n id m
    · rw [hm]
    · rw [hm]
      apply Program.lowerAlternatives_choice id hn
  rw [program, program, hroutine, nonterminalIds, size_mergeAlternatives, nonterminalIds]

end Grammar

/-! ### Runs -/

namespace Interpreter

variable {i j : Interpreter}

/-- A run depends on the program, on the scanner and on the names of the symbols. -/
theorem exec_congr (hprogram : j.program = i.program)
    (hscanner : j.grammar.scanner = i.grammar.scanner)
    (hnames : j.grammar.kindName = i.grammar.kindName) (fuel : Nat) :
  exec j fuel = exec i fuel
  := by
  have hlook : State.lookAhead j = State.lookAhead i := by
    funext s ts
    rw [State.lookAhead, State.lookAhead, hscanner]
  have hconsume : State.consume j = State.consume i := by
    funext s node t
    rw [State.consume, State.consume, hscanner, hnames]
  induction fuel with
  | zero => rfl
  | succ fuel ih =>
    funext ss node s
    match ss with
    | [] => rfl
    | .expect .. :: rest => rw [exec, exec, hconsume, ih]
    | .call n :: rest => rw [exec, exec, hprogram, ih]
    | .optional .. :: rest => rw [exec, exec, hlook, ih]
    | .loop _ _ true :: rest => rw [exec, exec, ih]
    | .loop _ _ false :: rest => rw [exec, exec, hlook, ih]
    | .dispatch .. :: rest => rw [exec, exec, hlook, ih]

end Interpreter

namespace Grammar

/-- The interpreter of a grammar. -/
def interpreter (g : Grammar) : Interpreter := ⟨g, g.program⟩

/-- The alternatives of a nonterminal mean one choice: the FIRST sets, the diagnostics of left
recursion, the program and the outcome of every parse stay when they are merged. -/
theorem unchanged_mergeAlternatives {g : Grammar} (hg : g.Fresh) {n : NonterminalId}
    (hn : 2 ≤ (g.nonterminal n).alternatives.length) (id : RuleId) :
  let merged := g.mergeAlternatives n id
  merged.firstSets = g.firstSets ∧ merged.firstSets.diagnostics = g.firstSets.diagnostics ∧
    merged.program = g.program ∧
    ∀ fuel text file, merged.interpreter.parse? fuel text file =
      g.interpreter.parse? fuel text file
  := by
  intro merged
  have hfirst : merged.firstSets = g.firstSets := firstSets_mergeAlternatives hg n id
  have hprogram : merged.program = g.program := program_mergeAlternatives hg hn id
  refine ⟨hfirst, congrArg FirstSets.diagnostics hfirst, hprogram, ?_⟩
  have hnames : merged.kindName = g.kindName := by
    funext kind
    cases kind with
    | nonterminal m => apply name_mergeAlternatives
    | _ => rfl
  have hexec : Interpreter.exec merged.interpreter = Interpreter.exec g.interpreter :=
    funext (Interpreter.exec_congr hprogram rfl hnames)
  intro fuel text file
  rw [Interpreter.parse?, Interpreter.parse?, hexec]
  rfl

/-- `Start -> 'a'; Start -> Start 'b'; Start -> 'a'?;` is left recursive, and two of its
alternatives are in conflict. -/
theorem unchanged_mergeAlternatives_conflict :
  let a : Rule := .terminal ⟨0⟩ ⟨0⟩
  let startB : Rule := .concat ⟨3⟩ [.nonterminal ⟨1⟩ ⟨0⟩, .terminal ⟨2⟩ ⟨1⟩]
  let ops : List Operation := [.addNonterminal (.bare startName .nowhere),
    .addLiteral "a" [] .nowhere, .addLiteral "b" [] .nowhere, .addAlternative ⟨0⟩ a,
    .addAlternative ⟨0⟩ startB, .addAlternative ⟨0⟩ (.option ⟨4⟩ a), .firstSets]
  let g := build ops
  let merged := g.mergeAlternatives ⟨0⟩ ⟨5⟩
  g.Fresh ∧ 2 ≤ (g.nonterminal ⟨0⟩).alternatives.length ∧ g.firstSets.sets = [⟨[⟨0⟩], true⟩] ∧
    g.firstSets.leftRecursions.map (·.name) = [startName] ∧
    (merged.nonterminal ⟨0⟩).alternatives.length = 1 ∧
    (merged.firstSets = g.firstSets ∧ merged.firstSets.diagnostics = g.firstSets.diagnostics ∧
      merged.program = g.program ∧
      ∀ fuel text file, merged.interpreter.parse? fuel text file =
        g.interpreter.parse? fuel text file)
  := by
  intro a startB ops g merged
  have hlength : 2 ≤ (g.nonterminal ⟨0⟩).alternatives.length := by decide +kernel
  refine ⟨fresh_build ops, hlength, by decide +kernel, by decide +kernel, by decide +kernel, ?_⟩
  exact unchanged_mergeAlternatives (fresh_build ops) hlength ⟨5⟩

end Grammar

end Descent
