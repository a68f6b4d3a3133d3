import Descent.Proofs.Numbering

/-!
# Products of texts with which nothing is wrong

If nothing is wrong with a text, then every diagnostic that could have been reported was not, and
so its grammar and its program are all that later steps rely on (`Compilation.Product.Sound`): names
are resolved, node numbers are unique, codes refer to symbols that are there, every rule node begins
with some terminal, and no statement is left out (`Compilation.exists_sound_of_isOk`).
-/

namespace Descent

/-! ### Symbols of nodes -/

namespace Rule

variable {p q r : Rule}

theorem symbols_subset_of_mem_children (h : q ∈ r.children) :
  q.symbols ⊆ r.symbols
  := by
  cases r with
  | concat id rs | choice id rs => exact fun x hx => mem_symbolsAll.mpr ⟨q, h, hx⟩
  | option id r | zeroOrMore id r | oneOrMore id r =>
    rw [List.mem_singleton.mp h]
    apply List.Subset.refl
  | terminal | nonterminal | unresolved => cases h

/-- The symbols of a node of a rule are symbols of the rule. -/
theorem symbols_subset_of_mem_nodes (r : Rule) (hq : q ∈ r.nodes) :
  q.symbols ⊆ r.symbols
  := by
  obtain rfl | ⟨c, hc, hq⟩ := mem_nodes.mp hq
  · apply List.Subset.refl
  · apply List.Subset.trans (symbols_subset_of_mem_nodes c hq) (symbols_subset_of_mem_children hc)
termination_by r
decreasing_by apply sizeOf_lt_of_mem_children hc

/-- An operand is a node. -/
theorem mem_nodes_of_mem_children (h : q ∈ r.children) :
  q ∈ r.nodes
  := mem_nodes.mpr (.inr ⟨q, h, mem_nodes_self q⟩)

end Rule

namespace Grammar

variable {g : Grammar} {q r : Rule}

theorem mem_nodes_of_mem_children (hq : q ∈ g.nodes) (h : r ∈ q.children) :
  r ∈ g.nodes
  := by
  obtain ⟨n, p, hp, hq⟩ := mem_nodes.mp hq
  exact mem_nodes.mpr ⟨n, p, hp, p.mem_nodes_trans hq (Rule.mem_nodes_of_mem_children h)⟩

theorem WellFormed.isProper_of_mem_nodes (hg : g.WellFormed) (hq : q ∈ g.nodes) :
  q.isProper
  := by
  obtain ⟨n, r, hr, hq⟩ := mem_nodes.mp hq
  apply Rule.isProper_of_mem_nodes r (hg.proper n r hr) hq

theorem WellFormed.has_of_mem_nodes (hg : g.WellFormed) (hq : q ∈ g.nodes) :
  ∀ x ∈ q.symbols, g.Has x
  := by
  intro x hx
  obtain ⟨n, r, hr, hq⟩ := mem_nodes.mp hq
  apply hg.has n r hr x (Rule.symbols_subset_of_mem_nodes r hq hx)

/-! ### Completed grammars -/

variable (g) (o : Options)

theorem nodes_prepare :
  (g.prepare o).nodes = g.nodes
  := by rw [nodes, nonterminals_prepare, nodes]

theorem start?_prepare :
  (g.prepare o).start? = g.start?
  := by
  rw [start?, nonterminal?, lookup?, names_prepare]
  rfl

theorem nonterminal_prepare :
  (g.prepare o).nonterminal = g.nonterminal
  := nonterminal_congr (nonterminals_prepare g o)

theorem nameOf_prepare :
  (g.prepare o).nameOf = g.nameOf
  := by
  funext x
  cases x with
  | terminal t =>
    rw [nameOf, terminal, terminals_prepare]
    rfl
  | nonterminal n => rw [nameOf, nonterminal_prepare, nameOf]

end Grammar

/-! ### Statements that are not left out -/

namespace Program

variable {ts : List TerminalId} (ss : List Stmt)

theorem optionalOf_of_ne_nil (h : ts ≠ []) :
  optionalOf ts ss = [.optional ts ss]
  := by rw [optionalOf, if_neg (by simpa using h)]

theorem loopOf_of_ne_nil (h : ts ≠ []) (atLeastOnce : Bool) :
  loopOf ts ss atLeastOnce = [.loop ts ss atLeastOnce]
  := by rw [loopOf, if_pos (by simpa using h)]

/-- A dispatch on alternatives of which a terminal selects the first has arms. -/
theorem exists_dispatchOf_eq (g : Grammar) (fs : FirstSets) (claimed : List TerminalId) {r : Rule}
    (rs : List Rule) (h : lookahead fs r ≠ []) :
  ∃ us arms expected,
    dispatchOf g claimed (lowerArms g fs [] (r :: rs)) = [.dispatch us arms expected] ∧ arms ≠ []
  := by
  have harms := lowerArms_ne_nil (g := g) rs h
  refine ⟨_, lowerArms g fs [] (r :: rs), _, if_neg (by simpa using harms), harms⟩

end Program

/-! ### Products -/

namespace Compilation

/-- What later steps rely on in a grammar and its program. -/
structure Product.Sound (p : Product) : Prop where
  start : ∃ n, p.grammar.start? = some n ∧ p.grammar.Has (.nonterminal n)
  alternatives : ∀ n ∈ p.grammar.nonterminalIds, (p.grammar.nonterminal n).alternatives ≠ []
  /-- Names are resolved, and sequences and choices have parts. -/
  resolved : ∀ q ∈ p.grammar.nodes, ∀ id,
    (∀ name, q ≠ .unresolved id name) ∧ q ≠ .concat id [] ∧ q ≠ .choice id []
  symbols : ∀ q ∈ p.grammar.nodes, ∀ x ∈ q.symbols, p.grammar.Has x
  /-- No two nodes of the grammar have the same id. -/
  ids : (p.grammar.nodes.map Rule.id).Nodup
  /-- Codes refer to symbols of their nonterminals. -/
  codes : ∀ n code, (p.grammar.nonterminal n).code = some code →
    ∀ o ∈ ActionCode.references code,
      String.ofList o.reference.name ∈ (p.grammar.nonterminal n).symbols.map p.grammar.nameOf
  /-- Some terminal selects every node. -/
  lookahead : ∀ q ∈ p.grammar.nodes, Program.lookahead p.grammar.firstSets q ≠ []
  options : ∀ id r, .option id r ∈ p.grammar.nodes →
    Program.lower p.grammar p.grammar.firstSets (.option id r) =
      [.optional (Program.lookahead p.grammar.firstSets r)
        (Program.lower p.grammar p.grammar.firstSets r)]
  repetitions : ∀ id r, .zeroOrMore id r ∈ p.grammar.nodes →
    Program.lower p.grammar p.grammar.firstSets (.zeroOrMore id r) =
      [.loop (Program.lookahead p.grammar.firstSets r)
        (Program.lower p.grammar p.grammar.firstSets r) false]
  repetitionsOnce : ∀ id r, .oneOrMore id r ∈ p.grammar.nodes →
    Program.lower p.grammar p.grammar.firstSets (.oneOrMore id r) =
      [.loop (Program.lookahead p.grammar.firstSets r)
        (Program.lower p.grammar p.grammar.firstSets r) true]
  choices : ∀ id rs, .choice id rs ∈ p.grammar.nodes → ∃ ts arms expected,
    Program.lower p.grammar p.grammar.firstSets (.choice id rs) = [.dispatch ts arms expected] ∧
      arms ≠ []
  /-- The routines are those of the nonterminals, in order. -/
  routines : p.program.routines.map (·.nonterminal) = p.grammar.nonterminalIds
  /-- Several alternatives of a nonterminal are a choice. -/
  dispatches : ∀ r ∈ p.program.routines,
    2 ≤ (p.grammar.nonterminal r.nonterminal).alternatives.length → ∃ ts arms expected,
      r.body = [.dispatch ts arms expected] ∧ arms ≠ []

variable {fs : FileSystem} {o : Options} {text file : String}

/-- The draft of a text with which nothing is wrong, from which its grammar is completed. -/
theorem exists_written_of_interpreter? [Engine] {i : Interpreter}
    (h : (ofText fs o text file).interpreter? = some i) :
  ∃ d : Draft, d.Written ∧ d.diagnostics = [] ∧ i.grammar = d.grammar.prepare o ∧
    d.grammar.start?.isSome
  := by
  obtain ⟨_, hd⟩ := product?_of_interpreter? h
  obtain ⟨g, ds, hfull, hg, hprepare, _, _, hds⟩ := exists_of_grammar? (grammar?_of_interpreter? h)
  rw [hds, List.append_eq_nil_iff] at hd
  obtain ⟨_, _, _, _, hstart⟩ := Grammar.defined_of_ofDescription hfull hg
  obtain ⟨_, heq⟩ | ⟨_, heq⟩ := Grammar.ofDescription_cases o fs (Description.parse text file).1
  · rw [heq] at hg
    cases hg
  · rw [heq] at hg
    injection hg with hg hds
    injection hg with hg
    have hbare := Draft.isBare_ofDeclarations o fs (Description.parse text file).1
    have hclosed := (Draft.declared_ofDeclarations o fs (Description.parse text file).1).closed
    have hwritten := Draft.written_foldl_defineProduction
      (Draft.written_of_isBare hbare hclosed.names) (Description.parse text file).1.productions
    subst hg
    exact ⟨_, hwritten, hds.trans hd.1, hprepare, hstart⟩

theorem product?_of_sound? {c : Compilation} {p : Product} (h : c.sound? = some p) :
  c.product? = some p
  := by
  unfold sound? at h
  split at h
  case isTrue => exact h
  case isFalse => cases h

/-- The program of a text is that of its grammar. -/
theorem program_of_sound? [Engine] {p : Product} (h : (ofText fs o text file).sound? = some p) :
  (ofText fs o text file).grammar? = some p.grammar ∧ p.program = p.grammar.program
  := by
  have hproduct := product?_of_sound? h
  have hgrammar : (ofText fs o text file).grammar? = some p.grammar := by
    rw [grammar?, hproduct, Option.map_some]
  obtain ⟨g, ds, -, -, -, -, hp, -⟩ := exists_of_grammar? hgrammar
  rw [hproduct, Option.some_inj] at hp
  exact ⟨hgrammar, by rw [hp]⟩

/-- The grammar of a text with which nothing is wrong is that of its draft, completed. -/
theorem grammar?_of_isOk [Engine] (h : (ofText fs o text file).isOk) :
  let desc := (Description.parse text file).1
  let d := desc.productions.foldl Draft.defineProduction (Draft.ofDeclarations o fs desc)
  (ofText fs o text file).grammar? = some (d.grammar.prepare o) ∧ d.diagnostics = []
  := by
  intro desc d
  obtain ⟨i, hi⟩ : ∃ i, (ofText fs o text file).interpreter? = some i := by
    rw [← Option.isSome_iff_exists, interpreter?, Option.isSome_map]
    exact h
  obtain ⟨-, hd⟩ := product?_of_interpreter? hi
  have hgrammar := grammar?_of_interpreter? hi
  obtain ⟨g, ds, -, hg, hprepare, -, -, hds⟩ := exists_of_grammar? hgrammar
  rw [hds, List.append_eq_nil_iff] at hd
  obtain ⟨-, heq⟩ | ⟨-, heq⟩ := Grammar.ofDescription_cases o fs desc
  · rw [heq] at hg
    cases hg
  · rw [heq] at hg
    injection hg with hg hds
    injection hg with hg
    exact ⟨by rw [hgrammar, hprepare, ← hg], hds.trans hd.1⟩

/-- If nothing is wrong with a text, then there are a grammar and a program, and they are sound. -/
theorem exists_sound_of_isOk [Engine] (h : (ofText fs o text file).isOk) :
  ∃ p, (ofText fs o text file).product? = some p ∧ p.Sound
  := by
  obtain ⟨i, hi⟩ : ∃ i, (ofText fs o text file).interpreter? = some i := by
    rw [← Option.isSome_iff_exists, interpreter?, Option.isSome_map]
    exact h
  refine ⟨⟨i.grammar, i.program⟩, (product?_of_interpreter? hi).1, ?_⟩
  have hcompiled := compiled_of_interpreter? hi
  have hg := hcompiled.wellFormed
  obtain ⟨d, hwritten, hnil, hprepare, hstart⟩ := exists_written_of_interpreter? hi
  have hlookahead : ∀ q ∈ i.grammar.nodes, Program.lookahead i.grammar.firstSets q ≠ [] :=
    fun q hq => hcompiled.lowers.lookahead q (hg.isProper_of_mem_nodes hq) (hg.has_of_mem_nodes hq)
  have hoperand : ∀ q ∈ i.grammar.nodes, ∀ r ∈ q.children,
      Program.lookahead i.grammar.firstSets r ≠ [] :=
    fun q hq r hr => hlookahead r (Grammar.mem_nodes_of_mem_children hq hr)
  constructor
  case start =>
    obtain ⟨n, hn⟩ := Option.isSome_iff_exists.mp hstart
    rw [← Grammar.start?_prepare _ o, ← hprepare] at hn
    exact ⟨n, hn, hg.start n hn⟩
  case alternatives =>
    intro n hn
    apply hg.inhabited n (Grammar.mem_nonterminalIds.mp hn)
  case resolved =>
    intro q hq id
    have hp := hg.isProper_of_mem_nodes hq
    refine ⟨?_, ?_, ?_⟩
    · rintro name rfl
      apply Rule.not_isProper_unresolved hp
    · rintro rfl
      apply (Rule.isProper_concat.mp hp).1 rfl
    · rintro rfl
      apply (Rule.isProper_choice.mp hp).1 rfl
  case symbols => exact fun q hq => hg.has_of_mem_nodes hq
  case ids =>
    apply List.Nodup.of_map RuleId.index
    rw [hprepare, Grammar.nodes_prepare, List.map_map]
    apply hwritten.numbers.2.nodup_iff.mpr (List.Ico.nodup _ _)
  case codes =>
    rw [hprepare, Grammar.nonterminal_prepare, Grammar.nameOf_prepare]
    apply hwritten.codes hnil
  case lookahead => exact hlookahead
  case options =>
    intro id r hr
    apply Program.optionalOf_of_ne_nil _ (hoperand _ hr r List.mem_cons_self)
  case repetitions =>
    intro id r hr
    apply Program.loopOf_of_ne_nil _ (hoperand _ hr r List.mem_cons_self)
  case repetitionsOnce =>
    intro id r hr
    apply Program.loopOf_of_ne_nil _ (hoperand _ hr r List.mem_cons_self)
  case choices =>
    intro id rs hrs
    obtain ⟨r, rs, rfl⟩ :=
      List.exists_cons_of_ne_nil (Rule.isProper_choice.mp (hg.isProper_of_mem_nodes hrs)).1
    apply Program.exists_dispatchOf_eq _ _ _ _ (hoperand _ hrs r List.mem_cons_self)
  case routines =>
    rw [hcompiled.program, Grammar.program, List.map_map]
    apply List.map_id
  case dispatches =>
    intro routine hroutine hlength
    rw [hcompiled.program, Grammar.program] at hroutine
    obtain ⟨n, -, rfl⟩ := List.mem_map.mp hroutine
    change 2 ≤ (i.grammar.nonterminal n).alternatives.length at hlength
    rw [Grammar.routine]
    cases halternatives : (i.grammar.nonterminal n).alternatives with
    | nil => simp [halternatives] at hlength
    | cons r rs =>
      cases rs with
      | nil => simp [halternatives] at hlength
      | cons q rs =>
        have hr : r ∈ i.grammar.nodes := Grammar.mem_nodes.mpr
          ⟨n, r, by simp [Grammar.productions, halternatives], r.mem_nodes_self⟩
        apply Program.exists_dispatchOf_eq _ _ _ _ (hlookahead r hr)

/-- The compilation of `Start -> '-'? Item+ { $Item }; Item -> 'a' | 'b';`. -/
def signedItems : Compilation :=
  .ofText (.bare []) ⟨⟨"."⟩, ⟨"."⟩⟩ "Start -> '-'? Item+ \x7b $Item \x7d; Item -> 'a' | 'b';" ""

/-- A text with an option, a repetition, a choice and a code has a sound product. -/
theorem exists_sound_signedItems :
  signedItems.isOk ∧ ∃ p, signedItems.product? = some p ∧ p.Sound ∧
    p.grammar.nodes.map (·.id.index) = [4, 1, 0, 3, 2, 7, 5, 6] ∧
    (p.grammar.nonterminal ⟨0⟩).code = some "$Item"
  := by
  have hok : signedItems.isOk := by decide +kernel
  obtain ⟨p, hp, hsound⟩ := exists_sound_of_isOk hok
  have hproduct : signedItems.product?.all fun p =>
      p.grammar.nodes.map (·.id.index) = [4, 1, 0, 3, 2, 7, 5, 6] ∧
        (p.grammar.nonterminal ⟨0⟩).code = some "$Item" := by
    decide +kernel
  rw [show signedItems.product? = some p from hp, Option.all_some, decide_eq_true_eq] at hproduct
  exact ⟨hok, p, hp, hsound, hproduct⟩

end Compilation

end Descent
