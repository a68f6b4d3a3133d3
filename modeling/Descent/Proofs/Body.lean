import Descent.Grammar.Defaults
import Descent.Proofs.Draft

/-!
# Rules of descriptions

The rule of an expression refers to symbols of the grammar only, and is proper if the expression is
full and all its names and literals are declared.  So a grammar that is read without diagnostics is
well formed (`Grammar.WellFormed`): its rules are proper, and every nonterminal has one.
-/

namespace Descent

open Description (Expr Production)

namespace Grammar

variable {g : Grammar}

/-! ### The rule of an expression -/

/-- A name becomes the symbol it stands for. -/
theorem has_of_nodeOfName (hg : g.Closed) {name : String} {id : RuleId} :
  ∀ x ∈ (g.nodeOfName name id).symbols, g.Has x
  := by
  intro x hx
  unfold nodeOfName at hx
  split at hx <;> simp only [Rule.symbols, List.mem_singleton, List.not_mem_nil] at hx
  · next h =>
    rw [hx]
    apply hg.names name _ h
  · next h =>
    rw [hx]
    apply hg.names name _ h

/-- A literal becomes the terminal that matches it. -/
theorem has_of_nodeOfLiteral (hg : g.Closed) {text : String} {id : RuleId} :
  ∀ x ∈ (g.nodeOfLiteral text id).symbols, g.Has x
  := by
  intro x hx
  unfold nodeOfLiteral at hx
  split at hx <;> simp only [Rule.symbols, List.mem_singleton, List.not_mem_nil] at hx
  next h =>
  rw [hx]
  apply hg.literals text _ h

mutual

/-- The rule of an expression refers to symbols of the grammar. -/
theorem has_of_ruleOf (hg : g.Closed) : ∀ (e : Expr) (k : Nat),
  ∀ x ∈ ((g.ruleOf e).run k).1.symbols, g.Has x
  | .ident _, _ => has_of_nodeOfName hg
  | .literal _, _ => has_of_nodeOfLiteral hg
  | .choice es, k => has_of_rulesOf hg es k
  | .concat es, k => has_of_rulesOf hg es k
  | .option e, k => has_of_ruleOf hg e k
  | .zeroOrMore e, k => has_of_ruleOf hg e k
  | .oneOrMore e, k => has_of_ruleOf hg e k

theorem has_of_rulesOf (hg : g.Closed) : ∀ (es : List Expr) (k : Nat),
  ∀ x ∈ Rule.symbolsAll ((g.rulesOf es).run k).1, g.Has x
  | [], _ => fun _ hx => absurd hx List.not_mem_nil
  | e :: es, k => by
      intro x hx
      obtain hx | hx := List.mem_append.mp hx
      · apply has_of_ruleOf hg e k x hx
      · apply has_of_rulesOf hg es _ x hx

end

theorem rulesOf_ne_nil {es : List Expr} (h : es ≠ []) (k : Nat) :
  ((g.rulesOf es).run k).1 ≠ []
  := by
  cases es with
  | nil => exact absurd rfl h
  | cons e es => apply List.cons_ne_nil _ _

/-- All literals in an expression have terminals. -/
def KnowsLiterals (g : Grammar) (texts : List (Located String)) : Prop :=
  ∀ text ∈ texts, (g.literal? text.value).isSome

mutual

/-- The rule of a full expression without undeclared names is proper. -/
theorem isProper_ruleOf : ∀ (e : Expr) (operand : Bool) (k : Nat), e.isFull →
    g.undeclared operand e = [] → g.KnowsLiterals e.literals →
  ((g.ruleOf e).run k).1.isProper
  | .ident name, operand, k, _, hu, _ => by
      change (g.nodeOfName name.value ⟨k⟩).isProper
      rw [nodeOfName]
      split
      · rfl
      · rfl
      · next h =>
        rw [undeclared, h] at hu
        cases operand <;> cases hu
  | .literal text, _, k, _, _, hl => by
      change (g.nodeOfLiteral text.value ⟨k⟩).isProper
      rw [nodeOfLiteral]
      split
      · rfl
      · next h =>
        have h' := hl text List.mem_cons_self
        rw [h] at h'
        cases h'
  | .choice es, _, k, hf, hu, hl => by
      obtain ⟨hne, hf⟩ := Description.Expr.isFull_choice.mp hf
      apply Rule.isProper_choice.mpr ⟨rulesOf_ne_nil hne k, isProper_rulesOf es k hf hu hl⟩
  | .concat es, _, k, hf, hu, hl => by
      obtain ⟨hne, hf⟩ := Description.Expr.isFull_concat.mp hf
      apply Rule.isProper_concat.mpr ⟨rulesOf_ne_nil hne k, isProper_rulesOf es k hf hu hl⟩
  | .option e, _, k, hf, hu, hl => Rule.isProper_option.mpr (isProper_ruleOf e true k hf hu hl)
  | .zeroOrMore e, _, k, hf, hu, hl =>
      Rule.isProper_zeroOrMore.mpr (isProper_ruleOf e true k hf hu hl)
  | .oneOrMore e, _, k, hf, hu, hl =>
      Rule.isProper_oneOrMore.mpr (isProper_ruleOf e true k hf hu hl)

theorem isProper_rulesOf : ∀ (es : List Expr) (k : Nat), (∀ e ∈ es, e.isFull) →
    g.undeclaredAll es = [] → g.KnowsLiterals (Description.Expr.literalsAll es) →
  ∀ r ∈ ((g.rulesOf es).run k).1, r.isProper
  | [], _, _, _, _ => fun _ hr => absurd hr List.not_mem_nil
  | e :: es, k, hf, hu, hl => by
      obtain ⟨he, hes⟩ := List.forall_mem_cons.mp hf
      obtain ⟨hue, hues⟩ := List.append_eq_nil_iff.mp hu
      intro r hr
      obtain rfl | hr := List.mem_cons.mp hr
      · apply isProper_ruleOf e false k he hue
        intro text ht
        apply hl text (List.mem_append_left _ ht)
      · apply isProper_rulesOf es _ hes hues _ r hr
        intro text ht
        apply hl text (List.mem_append_right _ ht)

end

theorem lookup?_of_nonterminal? {name : String} {n : NonterminalId}
    (h : g.nonterminal? name = some n) :
  g.lookup? name = some (.nonterminal n)
  := by
  unfold nonterminal? at h
  split at h
  · next hx =>
    cases h
    apply hx
  · cases h

/-! ### Adding rules -/

theorem productions_addAlternative (g : Grammar) (n : NonterminalId) (r : Rule)
    (m : NonterminalId) :
  (g.addAlternative n r).productions m =
    if m = n ∧ n.index < g.nonterminals.size then g.productions n ++ [r] else g.productions m
  := productions_updateNonterminal g n _ m

theorem Closed.addAlternative (hg : g.Closed) (n : NonterminalId) {r : Rule}
    (hr : ∀ x ∈ r.symbols, g.Has x) :
  (g.addAlternative n r).Closed
  := by
  have hhas : ∀ x, (g.addAlternative n r).Has x ↔ g.Has x := by
    rintro (t | m)
    · apply Iff.rfl
    · simp [Has, Grammar.addAlternative, updateNonterminal, invalidate]
  constructor
  · intro name x hx
    apply (hhas x).mpr (hg.names name x hx)
  · intro text t ht
    apply (hhas _).mpr (hg.literals text t ht)
  · intro m q hq x hx
    apply (hhas x).mpr
    rw [productions_addAlternative] at hq
    split at hq
    · obtain hq | hq := List.mem_append.mp hq
      · apply hg.rules n q hq x hx
      · rw [List.mem_singleton.mp hq] at hx
        apply hr x hx
    · apply hg.rules m q hq x hx
  · rfl

end Grammar

namespace Draft

/-- What holds of a draft while rules are added to the declared symbols of `g`: `done` are the
productions so far. -/
structure Defined (g : Grammar) (done : List Production) (d : Draft) : Prop where
  closed : d.grammar.Closed
  names : d.grammar.names = g.names
  literals : d.grammar.literals = g.literals
  nonterminals : d.grammar.nonterminals.size = g.nonterminals.size
  proper : d.diagnostics = [] → d.grammar.productions.Proper
  defined : ∀ p ∈ done, ∀ e, p.rhs = .rule e → ∀ n, g.nonterminal? p.name.value = some n →
    d.grammar.productions n ≠ []

variable {d d' : Draft} {g : Grammar} {done : List Production}

theorem Defined.alike (h : d.Defined g done) (ha : d.Alike d') :
  d'.Defined g done
  := by
  constructor
  · apply ha.grammar.closed h.closed
  · rw [ha.grammar.names, h.names]
  · rw [ha.grammar.literals, h.literals]
  · rw [ha.grammar.nonterminals, h.nonterminals]
  · intro hd
    rw [ha.grammar.productions]
    apply h.proper (ha.diagnostics hd)
  · rw [ha.grammar.productions]
    apply h.defined

/-- Adding a rule is, up to what does not count, adding an alternative.  Undeclared names are
reported. -/
theorem define_eq (d : Draft) (n : NonterminalId) (e : Expr) (code : Option (Located String)) :
  ∃ d', d.Alike d' ∧ (d'.diagnostics = [] → d.grammar.undeclared false e = []) ∧
    d.define n e code =
      d'.update (·.addAlternative n ((d.grammar.ruleOf e).run d.grammar.nextRule).1)
  := by
  let rule := ((d.grammar.ruleOf e).run d.grammar.nextRule).1
  let next := ((d.grammar.ruleOf e).run d.grammar.nextRule).2
  let d₁ := (d.update fun g => { g with nextRule := next }).add (d.grammar.undeclared false e)
  have h₁ : d.Alike d₁ := by
    apply Alike.trans _ (alike_add _ _)
    apply alike_update
    exact ⟨rfl, rfl, rfl, rfl, rfl, fun h => h⟩
  have hu : d₁.diagnostics = [] → d.grammar.undeclared false e = [] :=
    fun h => (List.append_eq_nil_iff.mp h).2
  cases code with
  | none => exact ⟨d₁, h₁, hu, rfl⟩
  | some c =>
    have h₂ : d₁.Alike ((d₁.update (·.setCode n c.value)).add (d.grammar.unmatched rule c)) := by
      apply Alike.trans _ (alike_add _ _)
      apply alike_update
      exact Grammar.alike_updateNonterminal _ n fun _ => rfl
    exact ⟨_, h₁.trans h₂, fun h => hu (h₂.diagnostics h), rfl⟩

/-- Adding the rule of a production that is full and whose literals have terminals. -/
theorem Defined.define (h : d.Defined g done) {p : Production} {e : Expr} {n : NonterminalId}
    (hn : g.nonterminal? p.name.value = some n) (he : e.isFull)
    (hl : d.diagnostics = [] → g.KnowsLiterals e.literals) (code : Option (Located String)) :
  (d.define n e code).Defined g (done ++ [p])
  := by
  obtain ⟨d', ha, hu, hd⟩ := define_eq d n e code
  have h' := h.alike ha
  rw [hd]
  constructor
  case closed =>
    apply h'.closed.addAlternative
    intro x hx
    apply ha.grammar.has_iff.mpr (Grammar.has_of_ruleOf h.closed e _ x hx)
  case names => apply h'.names
  case literals => apply h'.literals
  case nonterminals =>
    rw [← h'.nonterminals]
    simp [update, Grammar.addAlternative, Grammar.updateNonterminal, Grammar.invalidate]
  case proper =>
    intro hnil m r hr
    change r ∈ (d'.grammar.addAlternative n _).productions m at hr
    rw [Grammar.productions_addAlternative] at hr
    split at hr
    · obtain hr | hr := List.mem_append.mp hr
      · apply h'.proper hnil n r hr
      · rw [List.mem_singleton.mp hr]
        apply Grammar.isProper_ruleOf e false _ he (hu hnil)
        intro text ht
        have hk := hl (ha.diagnostics hnil) text ht
        rwa [Grammar.literal?, ← h.literals] at hk
    · apply h'.proper hnil m r hr
  case defined =>
    intro q hq e' he' m hm
    change (d'.grammar.addAlternative n _).productions m ≠ []
    rw [Grammar.productions_addAlternative]
    split
    case isTrue => simp
    case isFalse hmn =>
      obtain hq | hq := List.mem_append.mp hq
      · apply h'.defined q hq e' he' m hm
      · rw [List.mem_singleton.mp hq, hn] at hm
        cases hm
        refine absurd ⟨rfl, ?_⟩ hmn
        apply h'.closed.names p.name.value (.nonterminal n)
        rw [Grammar.lookup?, h'.names]
        apply Grammar.lookup?_of_nonterminal? hn

/-- Adding the rule of a production, if it has one. -/
theorem Defined.defineProduction (h : d.Defined g done) {p : Production} (hp : p.rhs.IsFull)
    (hl : d.diagnostics = [] → g.KnowsLiterals p.rhs.literals) :
  (d.defineProduction p).Defined g (done ++ [p])
  := by
  have hname : d.grammar.nonterminal? p.name.value = g.nonterminal? p.name.value := by
    rw [Grammar.nonterminal?, Grammar.lookup?, h.names, Grammar.nonterminal?, Grammar.lookup?]
  rw [Draft.defineProduction]
  split
  · next e n he hn =>
    rw [he] at hl
    apply h.define (hname ▸ hn) (hp e he) hl p.code
  · next hno =>
    refine ⟨h.closed, h.names, h.literals, h.nonterminals, h.proper, ?_⟩
    intro q hq e he n hn
    obtain hq | hq := List.mem_append.mp hq
    · apply h.defined q hq e he n hn
    · rw [List.mem_singleton.mp hq] at he hn
      exact absurd (hname.trans hn) (hno e n he)

/-- No diagnostics are dropped while rules are added. -/
theorem diagnostics_defineProduction (d : Draft) (p : Production)
    (h : (d.defineProduction p).diagnostics = []) :
  d.diagnostics = []
  := by
  unfold defineProduction at h
  split at h
  · next e n _ _ =>
    obtain ⟨d', ha, _, hd⟩ := define_eq d n e p.code
    rw [hd] at h
    apply ha.diagnostics h
  · apply h

theorem Defined.foldl_defineProduction (ps : List Production) :
    ∀ {d : Draft} {done : List Production}, d.Defined g done → (∀ p ∈ ps, p.rhs.IsFull) →
    (d.diagnostics = [] → ∀ p ∈ ps, g.KnowsLiterals p.rhs.literals) →
  (ps.foldl Draft.defineProduction d).Defined g (done ++ ps)
  := by
  induction ps with
  | nil =>
    intro d done h _ _
    simpa using h
  | cons p ps ih =>
    intro d done h hp hl
    obtain ⟨hpf, hp⟩ := List.forall_mem_cons.mp hp
    have h' := h.defineProduction hpf fun hd => hl hd p List.mem_cons_self
    have h'' := ih h' hp fun hd q hq =>
      hl (diagnostics_defineProduction d p hd) q (List.mem_cons_of_mem p hq)
    rwa [List.append_assoc] at h''

end Draft

/-! ### Well-formed grammars -/

namespace Grammar

variable {g : Grammar}

/-- The rules of a grammar are proper and refer to its symbols only, and every nonterminal has
one. -/
structure WellFormed (g : Grammar) : Prop where
  proper : g.productions.Proper
  has : ∀ n, ∀ r ∈ g.productions n, ∀ x ∈ r.symbols, g.Has x
  inhabited : ∀ n, g.Has (.nonterminal n) → g.productions n ≠ []
  start : ∀ n, g.start? = some n → g.Has (.nonterminal n)

/-- The draft of a description after its rules. -/
theorem defined_of_ofDescription [Engine] {o : Options} {fs : FileSystem} {desc : Description}
    {ds : List Diagnostic} (hfull : ∀ p ∈ desc.productions, p.rhs.IsFull)
    (h : ofDescription o fs desc = (some g, ds)) :
  ∃ d : Draft, d.grammar = g ∧ d.diagnostics = ds ∧
    d.Defined (Draft.ofDeclarations o fs desc).grammar desc.productions ∧ g.start?.isSome
  := by
  have hdecl := Draft.declared_ofDeclarations o fs desc
  have h₀ : (Draft.ofDeclarations o fs desc).Defined
      (Draft.ofDeclarations o fs desc).grammar [] := by
    refine ⟨hdecl.closed, rfl, rfl, rfl, ?_, by simp⟩
    intro _ n r hr
    rw [hdecl.bare n] at hr
    cases hr
  have hd := h₀.foldl_defineProduction desc.productions hfull fun hd p hp text ht =>
    hdecl.literals hd _ (List.mem_map_of_mem (List.mem_flatMap_of_mem hp ht))
  unfold ofDescription at h
  dsimp only at h
  split at h
  · cases h
  · next n hs =>
    cases h
    refine ⟨_, rfl, rfl, hd, ?_⟩
    rw [start?, nonterminal?, lookup?, hd.names, ← lookup?, ← nonterminal?, ← start?, hs]
    rfl

/-- The grammar of a description is closed. -/
theorem closed_of_ofDescription [Engine] {o : Options} {fs : FileSystem} {desc : Description}
    {ds : List Diagnostic} (hfull : ∀ p ∈ desc.productions, p.rhs.IsFull)
    (h : ofDescription o fs desc = (some g, ds)) :
  g.Closed
  := by
  obtain ⟨d, rfl, _, hd, _⟩ := defined_of_ofDescription hfull h
  apply hd.closed

/-- The grammar of a description with which nothing is wrong is well formed. -/
theorem wellFormed_of_ofDescription [Engine] {o : Options} {fs : FileSystem} {desc : Description}
    (hfull : ∀ p ∈ desc.productions, p.rhs.IsFull) (h : ofDescription o fs desc = (some g, [])) :
  g.WellFormed
  := by
  obtain ⟨d, rfl, hnil, hd, _⟩ := defined_of_ofDescription hfull h
  have hdecl := Draft.declared_ofDeclarations o fs desc
  constructor
  · apply hd.proper hnil
  · apply hd.closed.rules
  · intro n hn
    rw [Has, hd.nonterminals] at hn
    obtain ⟨p, hp, ⟨e, he⟩, hl⟩ := hdecl.declared n hn
    apply hd.defined p hp e he n
    rw [nonterminal?, hl]
  · intro n hn
    apply hd.closed.names _ _ (lookup?_of_nonterminal? hn)

end Grammar

end Descent
