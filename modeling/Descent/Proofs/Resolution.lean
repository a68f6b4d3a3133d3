import Descent.Proofs.Declarations

/-!
# Names are resolved in the order of the text

A name belongs to the first production of that name that has a rule, or a pattern that compiles
(`Description.declarer?`).  What a later production reports is told by the productions before it
(`Description.clashes`).

* While items are declared, names and symbols correspond one to one, and each name has the symbol
  that its declarer stands for (`Draft.Tabled`).
* While rules are added, the alternatives of a nonterminal are the rules of the productions of its
  name, one for each, with all names resolved (`Draft.Filled`).
* So the outcome of an analysis is determined by the text order of the productions
  (`Grammar.resolution_ofDescription`).
-/

namespace Descent

open Description (Production Item Expr Rhs)

/-! ### Who declares a name -/

namespace Description

/-- The production that declares a name: the first that has a rule, or a pattern that compiles. -/
def declarer? [Engine] (ps : List Production) (name : String) : Option Production :=
  ps.find? fun p => p.name.value = name ∧ (p.rule?.isSome ∨ p.terminal?.isSome)

/-- What is reported of a production whose name is declared before it: any pattern that compiles,
and a rule if the name is that of a terminal. -/
def Production.clash? [Engine] (before : List Production) (p : Production) : Option Diagnostic :=
  match declarer? before p.name.value with
  | none => none
  | some q =>
    if p.terminal?.isSome then
      some ((Problem.duplicateTerminal p.name.value).located p.name.span)
    else if p.rule?.isSome ∧ q.terminal?.isSome then
      some ((Problem.nameClash p.name.value).located p.name.span)
    else none

/-- What is reported of productions after others, one after the other. -/
def clashes [Engine] (before : List Production) : List Production → List Diagnostic
  | [] => []
  | p :: ps => (p.clash? before).toList ++ clashes (before ++ [p]) ps

/-- The expressions of the productions of a name, in order. -/
def expressionsOf (ps : List Production) (name : String) : List Expr :=
  ps.filterMap fun p => if p.name.value = name then p.rule? else none

theorem Production.terminal?_of_rule? [Engine] {p : Production} {e : Expr} (h : p.rule? = some e) :
  p.terminal? = none
  := by
  rw [rule?] at h
  rw [terminal?]
  split at h
  · cases h
  · rfl

theorem declarer?_concat [Engine] (ps : List Production) (p : Production) (name : String) :
  declarer? (ps ++ [p]) name = (declarer? ps name).or (declarer? [p] name)
  := List.find?_append

theorem declarer?_singleton [Engine] (p : Production) (name : String) :
  declarer? [p] name =
    if p.name.value = name ∧ (p.rule?.isSome ∨ p.terminal?.isSome) then some p else none
  := by
  rw [declarer?, List.find?_singleton]
  simp only [decide_eq_true_eq]

theorem clashes_concat [Engine] (p : Production) : ∀ (before ps : List Production),
  clashes before (ps ++ [p]) = clashes before ps ++ (p.clash? (before ++ ps)).toList
  | before, [] => by simp [clashes]
  | before, q :: ps => by
      rw [List.cons_append, clashes, clashes_concat, clashes, List.append_assoc, List.append_assoc]
      rfl

theorem expressionsOf_concat (ps : List Production) (p : Production) (name : String) :
  expressionsOf (ps ++ [p]) name =
    expressionsOf ps name ++ (if p.name.value = name then p.rule? else none).toList
  := by
  rw [expressionsOf, List.filterMap_append, expressionsOf]
  congr 1

theorem productions_concat_directive (is : List Item) (b : DirectiveBlock) :
  productions ⟨is ++ [.directive b]⟩ = productions ⟨is⟩
  := by simp [productions]

theorem productions_concat_production (is : List Item) (p : Production) :
  productions ⟨is ++ [.production p]⟩ = productions ⟨is⟩ ++ [p]
  := by simp [productions]

end Description

/-! ### The shape of an expression -/

/-- A rule has the shape of an expression, with its names and literal texts resolved. -/
inductive Resolves (names : String → Option Symbol) (literals : String → Option TerminalId) :
    Expr → Rule → Prop
  | terminal {name : Located String} {id : RuleId} {t : TerminalId}
      (h : names name.value = some (.terminal t)) :
      Resolves names literals (.ident name) (.terminal id t)
  | nonterminal {name : Located String} {id : RuleId} {n : NonterminalId}
      (h : names name.value = some (.nonterminal n)) :
      Resolves names literals (.ident name) (.nonterminal id n)
  | undeclared {name : Located String} {id : RuleId} (h : names name.value = none) :
      Resolves names literals (.ident name) (.unresolved id name.value)
  | literal {text : Located String} {id : RuleId} {t : TerminalId}
      (h : literals text.value = some t) : Resolves names literals (.literal text) (.terminal id t)
  | unknown {text : Located String} {id : RuleId} (h : literals text.value = none) :
      Resolves names literals (.literal text) (.unresolved id text.value)
  | choice {es : List Expr} {rs : List Rule} {id : RuleId}
      (h : List.Forall₂ (Resolves names literals) es rs) :
      Resolves names literals (.choice es) (.choice id rs)
  | concat {es : List Expr} {rs : List Rule} {id : RuleId}
      (h : List.Forall₂ (Resolves names literals) es rs) :
      Resolves names literals (.concat es) (.concat id rs)
  | option {e : Expr} {r : Rule} {id : RuleId} (h : Resolves names literals e r) :
      Resolves names literals (.option e) (.option id r)
  | zeroOrMore {e : Expr} {r : Rule} {id : RuleId} (h : Resolves names literals e r) :
      Resolves names literals (.zeroOrMore e) (.zeroOrMore id r)
  | oneOrMore {e : Expr} {r : Rule} {id : RuleId} (h : Resolves names literals e r) :
      Resolves names literals (.oneOrMore e) (.oneOrMore id r)

mutual

/-- The rule of an expression has its shape. -/
theorem Grammar.resolves_ruleOf (g : Grammar) : ∀ (e : Expr) (k : Nat),
  Resolves g.lookup? g.literal? e ((g.ruleOf e).run k).1
  | .ident name, k => by
      change Resolves _ _ _ (g.nodeOfName name.value ⟨k⟩)
      rw [nodeOfName]
      split
      · next h => exact .terminal h
      · next h => exact .nonterminal h
      · next h => exact .undeclared h
  | .literal text, k => by
      change Resolves _ _ _ (g.nodeOfLiteral text.value ⟨k⟩)
      rw [nodeOfLiteral]
      split
      · next h => exact .literal h
      · next h => exact .unknown h
  | .choice es, k => .choice (resolves_rulesOf g es k)
  | .concat es, k => .concat (resolves_rulesOf g es k)
  | .option e, k => .option (resolves_ruleOf g e k)
  | .zeroOrMore e, k => .zeroOrMore (resolves_ruleOf g e k)
  | .oneOrMore e, k => .oneOrMore (resolves_ruleOf g e k)

theorem Grammar.resolves_rulesOf (g : Grammar) : ∀ (es : List Expr) (k : Nat),
  List.Forall₂ (Resolves g.lookup? g.literal?) es ((g.rulesOf es).run k).1
  | [], _ => .nil
  | e :: es, k => .cons (resolves_ruleOf g e k) (resolves_rulesOf g es _)

end

/-! ### Symbols of productions -/

/-- Whether a diagnostic is about two productions of one name. -/
def Diagnostic.isClash (y : Diagnostic) : Bool := y.code = 0x1022 ∨ y.code = 0x1023

theorem Description.Production.isClash_of_clash? [Engine] {before : List Production}
    {p : Production} {y : Diagnostic} (h : p.clash? before = some y) :
  y.isClash = true ∧ y.code ≠ 0x0024
  := by
  unfold clash? at h
  split at h
  · cases h
  · split at h
    · cases h
      exact ⟨rfl, by simp [Problem.located, Diagnostic.located, Problem.code]⟩
    · split at h <;> cases h
      exact ⟨rfl, by simp [Problem.located, Diagnostic.located, Problem.code]⟩

namespace Grammar

/-- A symbol is what a production declares. -/
def IsOf [Engine] (g : Grammar) (p : Production) : Symbol → Prop
  | .terminal t => p.terminal? = some (g.terminal t).core
  | .nonterminal n => p.rule?.isSome ∧ (g.nonterminal n).name = p.name.value ∧
      (g.nonterminal n).span = p.name.span

/-- A terminal is that of a literal text. -/
def IsOfLiteral [Engine] (g : Grammar) (text : String) (t : TerminalId) : Prop :=
  ∃ name matcher span, Engine.anchored (Engine.escape text) false = .ok matcher ∧
    (g.terminal t).core = .ofLiteral name text matcher span

variable {g g' : Grammar}

/-! ### Symbols that stay what they are -/

section

variable (h : g'.core = g.core)

include h

theorem nameOf_of_core (x : Symbol) :
  g'.nameOf x = g.nameOf x
  := by
  cases x with
  | terminal t =>
    change (g'.terminal t).core.name = (g.terminal t).core.name
    rw [terminal_of_core h]
  | nonterminal n =>
    change (g'.nonterminal n).core.name = (g.nonterminal n).core.name
    rw [nonterminal_of_core h]

theorem isOf_of_core [Engine] (p : Production) (x : Symbol) :
  g'.IsOf p x ↔ g.IsOf p x
  := by
  cases x with
  | terminal t => rw [IsOf, terminal_of_core h, IsOf]
  | nonterminal n =>
    change _ ∧ (g'.nonterminal n).core.name = _ ∧ (g'.nonterminal n).core.span = _ ↔ _
    rw [nonterminal_of_core h]
    rfl

theorem isOfLiteral_of_core [Engine] (text : String) (t : TerminalId) :
  g'.IsOfLiteral text t ↔ g.IsOfLiteral text t
  := by rw [IsOfLiteral, terminal_of_core h, IsOfLiteral]

end

/-- A grammar with one more symbol, all others being what they were. -/
structure Extends (g : Grammar) (name : String) (x : Symbol) (g' : Grammar) : Prop where
  adds : g.Adds name x g'
  terminal : ∀ t, g.Has (.terminal t) → g'.terminal t = g.terminal t
  nonterminal : ∀ n, g.Has (.nonterminal n) → g'.nonterminal n = g.nonterminal n
  nameOf : g'.nameOf x = name

theorem extends_withTerminal {t : Terminal} (hl : g.lookup? t.name = none) :
  g.Extends t.name (.terminal ⟨g.terminals.size⟩) (g.withTerminal t)
  := by
  constructor
  · apply adds_of_addTerminal?
    rw [addTerminal?_eq, hl]
    rfl
  · intro u hu
    rw [terminal_withTerminal, if_neg (Nat.ne_of_lt hu)]
  · exact fun _ _ => rfl
  · rw [Grammar.nameOf, terminal_withTerminal, if_pos rfl]

theorem extends_withNonterminal {name : String} (span : Span) (hl : g.lookup? name = none) :
  g.Extends name (.nonterminal ⟨g.nonterminals.size⟩) (g.withNonterminal (.bare name span))
  := by
  have ha : g.addNonterminal? (.bare name span) =
      some (⟨g.nonterminals.size⟩, g.withNonterminal (.bare name span)) := by
    rw [addNonterminal?_eq]
    change (if (g.lookup? name).isSome then _ else _) = _
    rw [hl]
    rfl
  constructor
  · apply adds_of_addNonterminal? ha
  · exact fun _ _ => rfl
  · intro m hm
    rw [nonterminal_withNonterminal, if_neg (Nat.ne_of_lt hm)]
  · rw [Grammar.nameOf, nonterminal_withNonterminal, if_pos rfl]
    rfl

namespace Extends

variable {name : String} {x : Symbol} (h : g.Extends name x g')

include h

theorem nameOf_of_has {y : Symbol} (hy : g.Has y) :
  g'.nameOf y = g.nameOf y
  := by
  cases y with
  | terminal t => rw [Grammar.nameOf, h.terminal t hy, Grammar.nameOf]
  | nonterminal n => rw [Grammar.nameOf, h.nonterminal n hy, Grammar.nameOf]

theorem isOf_iff [Engine] (p : Production) {y : Symbol} (hy : g.Has y) :
  g'.IsOf p y ↔ g.IsOf p y
  := by
  cases y with
  | terminal t => rw [IsOf, h.terminal t hy, IsOf]
  | nonterminal n => rw [IsOf, h.nonterminal n hy, IsOf]

theorem isOfLiteral_iff [Engine] (text : String) {t : TerminalId} (ht : g.Has (.terminal t)) :
  g'.IsOfLiteral text t ↔ g.IsOfLiteral text t
  := by rw [IsOfLiteral, h.terminal t ht, IsOfLiteral]

/-- Names and symbols still correspond. -/
theorem lookup?_iff (hg : ∀ k y, g.lookup? k = some y ↔ g.Has y ∧ g.nameOf y = k) (k : String)
    (y : Symbol) :
  g'.lookup? k = some y ↔ g'.Has y ∧ g'.nameOf y = k
  := by
  rw [h.adds.lookup?, h.adds.has]
  by_cases hk : k = name
  · subst hk
    rw [if_pos rfl]
    constructor
    · rintro ⟨⟩
      exact ⟨.inl rfl, h.nameOf⟩
    · rintro ⟨rfl | hy, hname⟩
      · rfl
      · rw [h.nameOf_of_has hy] at hname
        have hl := (hg k y).mpr ⟨hy, hname⟩
        rw [h.adds.fresh] at hl
        cases hl
  · rw [if_neg hk]
    constructor
    · intro hl
      obtain ⟨hy, hname⟩ := (hg k y).mp hl
      exact ⟨.inr hy, by rw [h.nameOf_of_has hy, hname]⟩
    · rintro ⟨rfl | hy, hname⟩
      · exact absurd (hname.symm.trans h.nameOf) hk
      · rw [h.nameOf_of_has hy] at hname
        exact (hg k y).mpr ⟨hy, hname⟩

end Extends

/-- Two grammars with the same names and symbols, which may have different rules. -/
structure SameSymbols (g g' : Grammar) : Prop where
  lookup? : g.lookup? = g'.lookup?
  literal? : g.literal? = g'.literal?
  terminals : g.terminals = g'.terminals
  nonterminals : g.nonterminals.size = g'.nonterminals.size
  name : ∀ n, (g.nonterminal n).name = (g'.nonterminal n).name
  span : ∀ n, (g.nonterminal n).span = (g'.nonterminal n).span

namespace SameSymbols

theorem refl (g : Grammar) :
  g.SameSymbols g
  := by constructor <;> intros <;> rfl

theorem trans {g g' g'' : Grammar} (h : g.SameSymbols g') (h' : g'.SameSymbols g'') :
  g.SameSymbols g''
  := by
  constructor
  case lookup? => exact h.lookup?.trans h'.lookup?
  case literal? => exact h.literal?.trans h'.literal?
  case terminals => exact h.terminals.trans h'.terminals
  case nonterminals => exact h.nonterminals.trans h'.nonterminals
  case name => exact fun n => (h.name n).trans (h'.name n)
  case span => exact fun n => (h.span n).trans (h'.span n)

theorem has {g g' : Grammar} (h : g.SameSymbols g') (x : Symbol) :
  g.Has x ↔ g'.Has x
  := by
  cases x with
  | terminal t => rw [Has, h.terminals, Has]
  | nonterminal n => rw [Has, h.nonterminals, Has]

end SameSymbols

end Grammar

/-! ### While items are declared -/

namespace Description

/-- A literal text that a terminal can match. -/
def Compiles [Engine] (text : String) : Prop :=
  ∃ matcher, Engine.anchored (Engine.escape text) false = .ok matcher

end Description

theorem Diagnostic.IsRemark.code_ne {spans : List Span} {y : Diagnostic} (h : y.IsRemark spans) :
  y.isClash = false ∧ y.code ≠ 0x0024
  := by
  obtain ⟨p, hp, s, -, rfl⟩ := h
  obtain ⟨hstart, -, hduplicate, hname⟩ := Problem.code_of_isNaming hp
  refine ⟨?_, hstart⟩
  rw [isClash, decide_eq_false_iff_not, not_or]
  exact ⟨hduplicate, hname⟩

namespace Draft

open Description (declarer? clashes)

/-- Adding a rule changes neither names nor symbols. -/
theorem sameSymbols_define (d : Draft) {n : NonterminalId} (hn : d.grammar.Has (.nonterminal n))
    (e : Expr) (code : Option (Located String)) :
  (d.define n e code).grammar.SameSymbols d.grammar
  := by
  have heq := d.define_eq_write n e code
  have hcore : ∀ m, ((d.define n e code).grammar.nonterminal m).name =
      (d.grammar.nonterminal m).name ∧
      ((d.define n e code).grammar.nonterminal m).span = (d.grammar.nonterminal m).span := by
    intro m
    rw [d.nonterminal_define hn]
    split
    case isTrue hm =>
      rw [hm]
      exact ⟨rfl, rfl⟩
    case isFalse => exact ⟨rfl, rfl⟩
  constructor
  case lookup? => rw [heq]; rfl
  case literal? => rw [heq]; rfl
  case terminals => rw [heq]
  case nonterminals =>
    rw [heq]
    exact Array.size_modify
  case name => exact fun m => (hcore m).1
  case span => exact fun m => (hcore m).2

section

variable [Engine]

/-- What holds of a draft while items are declared: `ps` are the productions of the description, of
which `done` are declared, and `texts` are its literal texts so far. -/
structure Tabled (ps : List Production) (texts : List (Located String)) (done : List Production)
    (d : Draft) : Prop where
  /-- Names and symbols correspond. -/
  names : ∀ name x, d.grammar.lookup? name = some x ↔ d.grammar.Has x ∧ d.grammar.nameOf x = name
  declared : ∀ name p, declarer? done name = some p →
    ∃ x, d.grammar.lookup? name = some x ∧ d.grammar.IsOf p x
  /-- What no production declares is the terminal of a literal text. -/
  undeclared : ∀ name x, declarer? done name = none → d.grammar.lookup? name = some x →
    name ∉ ps.map (·.name.value) ∧
      ∃ text t, x = .terminal t ∧ d.grammar.literal? text = some t
  literals : ∀ text t, d.grammar.literal? text = some t →
    d.grammar.Has (.terminal t) ∧ d.grammar.IsOfLiteral text t
  known : ∀ text ∈ texts,
    (d.grammar.literal? text.value).isSome ↔ Description.Compiles text.value
  clashes : d.diagnostics.filter Diagnostic.isClash = clashes [] done
  started : ∀ y ∈ d.diagnostics, y.code ≠ 0x0024

variable {ps done : List Production} {texts : List (Located String)} {d d' : Draft}

theorem tabled_empty (ps : List Production) :
  Tabled ps [] [] empty
  := by
  constructor
  case names =>
    rintro name (t | n)
    · simp [empty, Grammar.empty, Grammar.lookup?, Grammar.Has]
    · simp [empty, Grammar.empty, Grammar.lookup?, Grammar.Has]
  case declared => rintro name p ⟨⟩
  case undeclared => rintro name x _ ⟨⟩
  case literals => rintro text t ⟨⟩
  case known => simp
  case clashes => rfl
  case started => rintro y ⟨⟩

/-- Annotations change neither names nor what is reported of them. -/
theorem Tabled.annotates (h : d.Tabled ps texts done) {spans : List Span}
    (ha : d.Annotates spans d') :
  d'.Tabled ps texts done
  := by
  obtain ⟨hcore, ds, hds, hremarks⟩ := ha
  constructor
  case names =>
    intro name x
    rw [Grammar.lookup?_of_core hcore, Grammar.has_of_core hcore, Grammar.nameOf_of_core hcore]
    apply h.names
  case declared =>
    intro name p hp
    obtain ⟨x, hx, hof⟩ := h.declared name p hp
    exact ⟨x, by rwa [Grammar.lookup?_of_core hcore], (Grammar.isOf_of_core hcore p x).mpr hof⟩
  case undeclared =>
    simp only [Grammar.lookup?_of_core hcore, Grammar.literal?_of_core hcore]
    apply h.undeclared
  case literals =>
    simp only [Grammar.literal?_of_core hcore, Grammar.has_of_core hcore,
      Grammar.isOfLiteral_of_core hcore]
    apply h.literals
  case known =>
    simp only [Grammar.literal?_of_core hcore]
    apply h.known
  case clashes =>
    have hnone : ds.filter Diagnostic.isClash = [] := List.filter_eq_nil_iff.mpr fun y hy => by
      rw [(hremarks y hy).code_ne.1]
      exact Bool.false_ne_true
    rw [hds, List.filter_append, hnone, List.append_nil, h.clashes]
  case started =>
    rw [hds]
    exact List.forall_mem_append.mpr ⟨h.started, fun y hy => (hremarks y hy).code_ne.2⟩

section

variable {name : String} {x : Symbol} {g : Grammar}

/-- Declarers keep their symbols when one is added. -/
theorem Tabled.declared_extends (h : d.Tabled ps texts done) (he : d.grammar.Extends name x g)
    {k : String} {p : Production} (hp : declarer? done k = some p) :
  ∃ y, g.lookup? k = some y ∧ g.IsOf p y
  := by
  obtain ⟨y, hy, hof⟩ := h.declared k p hp
  have hk : k ≠ name := by
    rintro rfl
    rw [he.adds.fresh] at hy
    cases hy
  have hhas := ((h.names k y).mp hy).1
  exact ⟨y, by rw [he.adds.lookup?, if_neg hk, hy], (he.isOf_iff p hhas).mpr hof⟩

/-- Literal texts keep their terminals when a symbol is added. -/
theorem Tabled.literals_extends (h : d.Tabled ps texts done) (he : d.grammar.Extends name x g)
    {text : String} {t : TerminalId} (ht : d.grammar.literal? text = some t) :
  g.Has (.terminal t) ∧ g.IsOfLiteral text t
  := by
  obtain ⟨hhas, hof⟩ := h.literals text t ht
  exact ⟨(he.adds.has _).mpr (.inr hhas), (he.isOfLiteral_iff text hhas).mpr hof⟩

end

/-- A literal text without a terminal is given one, under a name that no production has. -/
theorem Tabled.withLiteral (h : d.Tabled ps texts []) {text : Located String}
    {name : String} {matcher : Matcher} (hl : d.grammar.literal? text.value = none)
    (hc : Engine.anchored (Engine.escape text.value) false = .ok matcher)
    (hname : name ∉ ps.map (·.name.value)) (hfree : d.grammar.lookup? name = none) :
  (d.update (·.withLiteral text.value (.ofLiteral name text.value matcher text.span))).Tabled ps
    (texts ++ [text]) []
  := by
  have he := Grammar.extends_withTerminal (t := .ofLiteral name text.value matcher text.span) hfree
  have hlookup := he.adds.lookup?
  constructor
  case names => apply he.lookup?_iff h.names
  case declared => exact fun k p hp => h.declared_extends he hp
  case undeclared =>
    intro k y hk hy
    change (Grammar.withTerminal _ _).lookup? k = some y at hy
    simp only [update, Grammar.literal?_withLiteral]
    rw [hlookup] at hy
    split at hy
    case isTrue hkn =>
      cases hy
      rw [hkn]
      exact ⟨hname, text.value, _, rfl, if_pos rfl⟩
    case isFalse =>
      obtain ⟨hno, u, t, rfl, ht⟩ := h.undeclared k y hk hy
      refine ⟨hno, u, t, rfl, ?_⟩
      rw [if_neg, ht]
      rintro rfl
      rw [hl] at ht
      cases ht
  case literals =>
    intro u t ht
    simp only [update, Grammar.literal?_withLiteral] at ht
    split at ht
    case isTrue hu =>
      cases ht
      subst hu
      refine ⟨(he.adds.has _).mpr (.inl rfl), name, matcher, text.span, hc, ?_⟩
      change ((Grammar.withTerminal _ _).terminal _).core = _
      rw [Grammar.terminal_withTerminal, if_pos rfl]
      rfl
    case isFalse => apply h.literals_extends he ht
  case known =>
    intro u hu
    simp only [update, Grammar.literal?_withLiteral]
    split
    case isTrue hut =>
      rw [hut]
      exact ⟨fun _ => ⟨matcher, hc⟩, fun _ => rfl⟩
    case isFalse hut =>
      obtain hu | hu := List.mem_append.mp hu
      · apply h.known u hu
      · exact absurd (congrArg Located.value (List.mem_singleton.mp hu)) hut
  case clashes => exact h.clashes
  case started => exact h.started

/-- A literal text is given its terminal before any production is declared. -/
theorem Tabled.declaresLiteral (h : d.Tabled ps texts []) {text : Located String}
    (hd : d.DeclaresLiteral (ps.map (·.name.value)) text d') :
  d'.Tabled ps (texts ++ [text]) []
  := by
  cases hd with
  | known ht =>
    refine { h with known := List.forall_mem_append.mpr ⟨h.known, ?_⟩ }
    rintro _ (_ | ⟨_, ⟨⟩⟩)
    obtain ⟨_, _, matcher, _, hc, _⟩ := h.literals _ _ ht
    rw [ht]
    exact ⟨fun _ => ⟨matcher, hc⟩, fun _ => rfl⟩
  | @invalid reason hl hc =>
    have hremark :
        d.Annotates [text.span] (d.report (.invalidPattern text.value reason) text.span) :=
      annotates_report d rfl List.mem_cons_self
    refine { h.annotates hremark with known := List.forall_mem_append.mpr ⟨h.known, ?_⟩ }
    rintro _ (_ | ⟨_, ⟨⟩⟩)
    change (d.grammar.literal? text.value).isSome ↔ _
    rw [hl, Description.Compiles, hc]
    simp
  | added hl hc hname hfree => apply h.withLiteral hl hc hname hfree

/-! ### Productions -/

/-- A name that has no symbol is not declared. -/
theorem Tabled.declarer?_eq_none (h : d.Tabled ps texts done) {name : String}
    (hl : d.grammar.lookup? name = none) :
  declarer? done name = none
  := by
  rw [Option.eq_none_iff_forall_ne_some]
  intro p hp
  obtain ⟨x, hx, _⟩ := h.declared name p hp
  rw [hl] at hx
  cases hx

/-- The name of a production that has a symbol is declared. -/
theorem Tabled.exists_declarer? (h : d.Tabled ps texts done) {p : Production} (hp : p ∈ ps)
    {x : Symbol} (hx : d.grammar.lookup? p.name.value = some x) :
  ∃ q, declarer? done p.name.value = some q ∧ d.grammar.IsOf q x
  := by
  cases hq : declarer? done p.name.value with
  | none => exact absurd (List.mem_map_of_mem hp) (h.undeclared _ x hq hx).1
  | some q =>
    obtain ⟨y, hy, hof⟩ := h.declared _ q hq
    rw [hx] at hy
    cases hy
    exact ⟨q, rfl, hof⟩

/-- A production whose name is declared already, or that declares nothing, is reported at most. -/
theorem Tabled.concat (h : d.Tabled ps texts done) {p : Production}
    (hp : (declarer? done p.name.value).isSome ∨ p.rule? = none ∧ p.terminal? = none) :
  (d.add (p.clash? done).toList).Tabled ps texts (done ++ [p])
  := by
  have hdeclarer : ∀ name, declarer? (done ++ [p]) name = declarer? done name := by
    intro name
    rw [Description.declarer?_concat, Description.declarer?_singleton]
    obtain hsome | ⟨hr, ht⟩ := hp
    · by_cases hname : p.name.value = name
      · obtain ⟨q, hq⟩ := Option.isSome_iff_exists.mp hsome
        rw [← hname, hq, Option.some_or]
      · rw [if_neg fun h => hname h.1, Option.or_none]
    · rw [hr, ht, if_neg (by simp), Option.or_none]
  have hclash : ∀ y ∈ (p.clash? done).toList, y.isClash = true ∧ y.code ≠ 0x0024 :=
    fun y hy => Production.isClash_of_clash? (Option.mem_toList.mp hy)
  constructor
  case names => exact h.names
  case declared =>
    simp only [hdeclarer]
    exact h.declared
  case undeclared =>
    simp only [hdeclarer]
    exact h.undeclared
  case literals => exact h.literals
  case known => exact h.known
  case clashes =>
    have hall : (p.clash? done).toList.filter Diagnostic.isClash = (p.clash? done).toList :=
      List.filter_eq_self.mpr fun y hy => (hclash y hy).1
    rw [add, List.filter_append, hall, h.clashes, Description.clashes_concat, List.nil_append]
  case started => exact List.forall_mem_append.mpr ⟨h.started, fun y hy => (hclash y hy).2⟩

theorem Tabled.concat_of_none (h : d.Tabled ps texts done) {p : Production}
    (hp : (declarer? done p.name.value).isSome ∨ p.rule? = none ∧ p.terminal? = none)
    (hc : p.clash? done = none) :
  d.Tabled ps texts (done ++ [p])
  := by
  have h' := h.concat hp
  rwa [hc, Option.toList_none, add, List.append_nil] at h'

/-- A production whose name has no symbol declares one. -/
theorem Tabled.declares (h : d.Tabled ps texts done) {p : Production} {x : Symbol} {g : Grammar}
    (he : d.grammar.Extends p.name.value x g) (hp : p.rule?.isSome ∨ p.terminal?.isSome)
    (hx : g.IsOf p x) :
  (d.update fun _ => g).Tabled ps texts (done ++ [p])
  := by
  have hnone := h.declarer?_eq_none he.adds.fresh
  have hdeclarer : ∀ name, declarer? (done ++ [p]) name =
      if p.name.value = name then some p else declarer? done name := by
    intro name
    rw [Description.declarer?_concat, Description.declarer?_singleton]
    split
    case isTrue hname => rw [← hname.1, hnone, if_pos rfl, Option.none_or]
    case isFalse hname => rw [if_neg fun h => hname ⟨h, hp⟩, Option.or_none]
  constructor
  case names => apply he.lookup?_iff h.names
  case declared =>
    intro name q hq
    rw [hdeclarer] at hq
    split at hq
    case isTrue hname =>
      cases hq
      exact ⟨x, by rw [← hname]; exact (he.adds.lookup? _).trans (if_pos rfl), hx⟩
    case isFalse => apply h.declared_extends he hq
  case undeclared =>
    intro name y hq hy
    rw [hdeclarer] at hq
    split at hq
    case isTrue => cases hq
    case isFalse hname =>
      have hy := (he.adds.lookup? name).symm.trans hy
      rw [if_neg (Ne.symm hname)] at hy
      obtain ⟨hno, text, t, rfl, ht⟩ := h.undeclared name y hq hy
      refine ⟨hno, text, t, rfl, ?_⟩
      change g.literal? text = some t
      rw [Grammar.literal?, he.adds.literals]
      apply ht
  case literals =>
    intro text t ht
    change g.literal? text = some t at ht
    rw [Grammar.literal?, he.adds.literals] at ht
    apply h.literals_extends he ht
  case known =>
    intro text ht
    change (g.literal? text.value).isSome ↔ _
    rw [Grammar.literal?, he.adds.literals]
    apply h.known text ht
  case clashes =>
    have hclash : p.clash? done = none := by rw [Production.clash?, hnone]
    rw [Description.clashes_concat, List.nil_append, hclash]
    apply h.clashes.trans (List.append_nil _).symm
  case started => exact h.started

/-- The terminal of a production has no attributes. -/
theorem core_of_terminal? {p : Production} {t : Terminal} (h : p.terminal? = some t) :
  t.core = t
  := by
  unfold Production.terminal? at h
  split at h
  · obtain ⟨matcher, _, rfl⟩ := Option.map_eq_some_iff.mp h
    rfl
  · cases h

/-- A rule of a nonterminal clashes with nothing. -/
theorem Tabled.clash?_of_nonterminal (h : d.Tabled ps texts done) {p : Production} (hp : p ∈ ps)
    {e : Expr} {n : NonterminalId} (hr : p.rule? = some e)
    (hl : d.grammar.lookup? p.name.value = some (.nonterminal n)) :
  p.clash? done = none
  := by
  obtain ⟨q, hq, hrule, _⟩ := h.exists_declarer? hp hl
  obtain ⟨f, hf⟩ := Option.isSome_iff_exists.mp hrule
  rw [Production.clash?, hq]
  dsimp only
  rw [Production.terminal?_of_rule? hr, Production.terminal?_of_rule? hf]
  simp

/-- Declaring a production. -/
theorem Tabled.declaresProduction (h : d.Tabled ps texts done) {p : Production} (hp : p ∈ ps)
    (hd : d.Declares (.production p) d') :
  d'.Tabled ps texts (done ++ [p])
  := by
  cases hd with
  | @invalid _ reason ht hr =>
    have hremark :
        d.Annotates [p.name.span] (d.report (.invalidPattern p.name.value reason) p.name.span) :=
      annotates_report d rfl List.mem_cons_self
    apply (h.annotates hremark).concat_of_none (.inr ⟨hr, ht⟩)
    rw [Production.clash?, hr, ht]
    split <;> rfl
  | @terminal _ t _ ht hl hannotates =>
    have he := Grammar.extends_withTerminal (by rw [Production.name_of_terminal? ht, hl])
    rw [Production.name_of_terminal? ht] at he
    apply Tabled.annotates _ hannotates
    apply h.declares he (.inr (by rw [ht]; rfl))
    rw [Grammar.IsOf, Grammar.terminal_withTerminal, if_pos rfl, core_of_terminal? ht, ht]
  | duplicate ht hl hg hannotates =>
    obtain ⟨x, hx⟩ := Option.isSome_iff_exists.mp hl
    obtain ⟨q, hq, _⟩ := h.exists_declarer? hp hx
    have h' := (h.annotates hannotates).concat (.inl (Option.isSome_of_eq_some hq))
    rwa [Production.clash?, hq, ht] at h'
  | nonterminal hr hl hannotates =>
    have he := Grammar.extends_withNonterminal p.name.span hl
    apply Tabled.annotates _ hannotates
    apply h.declares he (.inl (by rw [hr]; rfl))
    rw [Grammar.IsOf, Grammar.nonterminal_withNonterminal, if_pos rfl]
    exact ⟨by rw [hr]; rfl, rfl, rfl⟩
  | again hr hl hannotates =>
    obtain ⟨q, hq, _⟩ := h.exists_declarer? hp hl
    apply (h.annotates hannotates).concat_of_none (.inl (Option.isSome_of_eq_some hq))
    apply h.clash?_of_nonterminal hp hr hl
  | clash hr hl =>
    obtain ⟨q, hq, ht⟩ := h.exists_declarer? hp hl
    have h' := h.concat (.inl (Option.isSome_of_eq_some hq))
    rw [Production.clash?, hq] at h'
    dsimp only at h'
    rwa [Production.terminal?_of_rule? hr, hr, ht] at h'

/-- A production that clashes with one before it changes nothing. -/
theorem Tabled.grammar_of_clash? (h : d.Tabled ps texts done) {p : Production} (hp : p ∈ ps)
    (hc : (p.clash? done).isSome) (hd : d.Declares (.production p) d') :
  d'.grammar = d.grammar
  := by
  have hfresh : d.grammar.lookup? p.name.value ≠ none := by
    intro hl
    rw [Production.clash?, h.declarer?_eq_none hl] at hc
    cases hc
  cases hd with
  | invalid => rfl
  | terminal _ hl => exact absurd hl hfresh
  | duplicate _ _ hg => exact hg
  | nonterminal _ hl => exact absurd hl hfresh
  | again hr hl =>
    rw [h.clash?_of_nonterminal hp hr hl] at hc
    cases hc
  | clash => rfl

/-! ### Items -/

/-- The draft after the first items of a description. -/
def afterItems (o : Options) (fs : FileSystem) (desc : Description) (is : List Item) : Draft :=
  is.foldl (declareItem o fs) (empty.declareLiterals desc)

theorem tabled_foldl_declareLiteral (ps : List Production) (texts : List (Located String)) :
  (texts.foldl (declareLiteral (ps.map (·.name.value))) empty).Tabled ps texts []
  := by
  induction texts using List.reverseRecOn with
  | nil => apply tabled_empty
  | append_singleton texts text ih =>
    rw [List.foldl_append]
    apply ih.declaresLiteral (declaresLiteral_declareLiteral _ _ text)

/-- After its first items, the names of a description belong to the productions among them. -/
theorem tabled_afterItems (o : Options) (fs : FileSystem) (desc : Description) (is : List Item)
    (his : is ⊆ desc.items) :
  (afterItems o fs desc is).Tabled desc.productions (literalsOf desc)
    (Description.productions ⟨is⟩)
  := by
  induction is using List.reverseRecOn with
  | nil => apply tabled_foldl_declareLiteral
  | append_singleton is i ih =>
    have h := ih fun j hj => his (List.mem_append_left _ hj)
    have hd := declares_declareItem (afterItems o fs desc is) o fs i
    rw [afterItems, List.foldl_append]
    cases i with
    | directive b =>
      rw [Description.productions_concat_directive]
      cases hd with
      | directive ha => apply h.annotates ha
    | production p =>
      have hp : p ∈ desc.productions := Description.mem_productions.mpr (his (by simp))
      rw [Description.productions_concat_production]
      apply h.declaresProduction hp hd

/-- After an item that clashes with those before it, the symbols are what they were. -/
theorem grammar_afterItems_of_clash? {o : Options} {fs : FileSystem} {desc : Description}
    {before rest : List Item} {p : Production}
    (hitems : desc.items = before ++ .production p :: rest)
    (hc : (p.clash? (Description.productions ⟨before⟩)).isSome) :
  (afterItems o fs desc (before ++ [.production p])).grammar =
    (afterItems o fs desc before).grammar
  := by
  have hbefore : before ⊆ desc.items := by simp [hitems]
  have hp : p ∈ desc.productions := Description.mem_productions.mpr (by simp [hitems])
  have hd := declares_declareItem (afterItems o fs desc before) o fs (.production p)
  rw [afterItems, List.foldl_append]
  apply (tabled_afterItems o fs desc before hbefore).grammar_of_clash? hp hc hd

/-! ### While rules are added -/

end

/-- What holds of a draft while rules are added to the declared symbols of `g`: `done` are the
productions so far, and `cs` is what was reported of names before. -/
structure Filled (g : Grammar) (cs : List Diagnostic) (done : List Production) (d : Draft) :
    Prop where
  same : d.grammar.SameSymbols g
  /-- The alternatives of a nonterminal are the rules of its name. -/
  alternatives : ∀ n, g.Has (.nonterminal n) →
    List.Forall₂ (Resolves g.lookup? g.literal?)
      (Description.expressionsOf done (g.nonterminal n).name) (d.grammar.nonterminal n).alternatives
  clashes : d.diagnostics.filter Diagnostic.isClash = cs
  started : ∀ y ∈ d.diagnostics, y.code ≠ 0x0024

variable {done : List Production} {d : Draft} {g : Grammar} {cs : List Diagnostic}

/-- No rules are added by declarations. -/
theorem filled_ofDeclarations [Engine] (o : Options) (fs : FileSystem) (desc : Description) :
  (ofDeclarations o fs desc).Filled (ofDeclarations o fs desc).grammar
    (Description.clashes [] desc.productions) []
  := by
  have htabled := tabled_afterItems o fs desc desc.items (List.Subset.refl _)
  constructor
  case same => apply Grammar.SameSymbols.refl
  case alternatives =>
    intro n _
    rw [(isBare_ofDeclarations o fs desc).alternatives n]
    exact .nil
  case clashes => exact htabled.clashes
  case started => exact htabled.started

/-- A production without a nonterminal of its name adds no rule. -/
theorem Filled.concat (h : d.Filled g cs done) {p : Production}
    (hp : ∀ n, g.Has (.nonterminal n) → p.rule?.isSome → (g.nonterminal n).name ≠ p.name.value) :
  d.Filled g cs (done ++ [p])
  := by
  refine { h with alternatives := ?_ }
  intro n hn
  have hnone : (if p.name.value = (g.nonterminal n).name then p.rule? else none) = none := by
    split
    case isTrue hname =>
      rw [← Option.not_isSome_iff_eq_none]
      exact fun hr => hp n hn hr hname.symm
    case isFalse => rfl
  rw [Description.expressionsOf_concat, hnone, Option.toList_none, List.append_nil]
  apply h.alternatives n hn

/-- Adding the rule of a production to the nonterminal of its name. -/
theorem Filled.define (h : d.Filled g cs done)
    (hnames : ∀ name x, g.lookup? name = some x ↔ g.Has x ∧ g.nameOf x = name)
    {p : Production} {e : Expr} {n : NonterminalId} (he : p.rule? = some e)
    (hn : d.grammar.nonterminal? p.name.value = some n) :
  (d.define n e p.code).Filled g cs (done ++ [p])
  := by
  have hl := Grammar.lookup?_of_nonterminal? hn
  rw [h.same.lookup?] at hl
  obtain ⟨hhas, hname⟩ := (hnames _ _).mp hl
  have hhas' := (h.same.has _).mpr hhas
  have heq := d.define_eq_write n e p.code
  -- Neither what is undeclared nor what is not matched is about two productions of one name.
  have hnew : ∀ y ∈ d.grammar.undeclared false e ++ p.code.toList.flatMap
      (d.grammar.unmatched ((d.grammar.ruleOf e).run d.grammar.nextRule).1),
      y.isClash = false ∧ y.code ≠ 0x0024 := by
    rw [List.forall_mem_append]
    constructor
    · exact fun y hy => (d.grammar.isRemark_undeclared e false y hy).code_ne
    · intro y hy
      obtain ⟨c, -, hy⟩ := List.mem_flatMap.mp hy
      obtain ⟨before, name, -, rfl⟩ := Grammar.exists_of_mem_unmatched hy
      exact ⟨rfl, by simp [Problem.located, Diagnostic.located, Problem.code]⟩
  constructor
  case same => apply (d.sameSymbols_define hhas' e p.code).trans h.same
  case alternatives =>
    intro m hm
    rw [Description.expressionsOf_concat, d.nonterminal_define hhas']
    by_cases hmn : m = n
    · subst hmn
      change (g.nonterminal m).name = _ at hname
      rw [if_pos rfl, if_pos hname.symm, he]
      have hr := d.grammar.resolves_ruleOf e d.grammar.nextRule
      rw [h.same.lookup?, h.same.literal?] at hr
      apply List.rel_append (h.alternatives m hm) (.cons hr .nil)
    · have hother : p.name.value ≠ (g.nonterminal m).name := by
        intro hm'
        have hlm := (hnames p.name.value (.nonterminal m)).mpr ⟨hm, hm'.symm⟩
        rw [hl] at hlm
        cases hlm
        exact hmn rfl
      rw [if_neg hmn, if_neg hother, Option.toList_none, List.append_nil]
      apply h.alternatives m hm
  case clashes =>
    rw [heq, List.filter_append, h.clashes, List.filter_eq_nil_iff.mpr, List.append_nil]
    intro y hy
    rw [(hnew y hy).1]
    exact Bool.false_ne_true
  case started =>
    rw [heq]
    exact List.forall_mem_append.mpr ⟨h.started, fun y hy => (hnew y hy).2⟩

/-- After all productions, the alternatives of a nonterminal are the rules of its name. -/
theorem Filled.foldl_defineProduction (h : d.Filled g cs [])
    (hnames : ∀ name x, g.lookup? name = some x ↔ g.Has x ∧ g.nameOf x = name)
    (ps : List Production) :
  (ps.foldl defineProduction d).Filled g cs ps
  := by
  induction ps using List.reverseRecOn with
  | nil => apply h
  | append_singleton ps p ih =>
    rw [List.foldl_append]
    change (defineProduction _ p).Filled g cs _
    obtain ⟨e, n, he, hn, heq⟩ | ⟨heq, hnone⟩ :=
      (ps.foldl defineProduction d).defineProduction_cases p
    · rw [heq]
      apply ih.define hnames he hn
    · rw [heq]
      apply ih.concat
      intro n hn hr hname
      have hl := (hnames _ (.nonterminal n)).mpr ⟨hn, hname⟩
      have hnone := hnone hr
      rw [Grammar.nonterminal?, ih.same.lookup?, hl] at hnone
      cases hnone

end Draft

/-! ### The outcome of an analysis -/

namespace Grammar

section

variable [Engine]

/-- How the names of a description are resolved by a grammar. -/
structure Table (desc : Description) (g : Grammar) : Prop where
  /-- Names and symbols correspond one to one. -/
  names : ∀ name x, g.lookup? name = some x ↔ g.Has x ∧ g.nameOf x = name
  /-- A name has the symbol that its declarer stands for. -/
  declared : ∀ name p, Description.declarer? desc.productions name = some p →
    ∃ x, g.lookup? name = some x ∧ g.IsOf p x
  /-- A name that no production declares is that of a literal text, and of no production. -/
  undeclared : ∀ name x, Description.declarer? desc.productions name = none →
    g.lookup? name = some x → name ∉ desc.productions.map (·.name.value) ∧
      ∃ text t, x = .terminal t ∧ g.literal? text = some t
  literals : ∀ text t, g.literal? text = some t → g.Has (.terminal t) ∧ g.IsOfLiteral text t
  known : ∀ text ∈ Draft.literalsOf desc,
    (g.literal? text.value).isSome ↔ Description.Compiles text.value

/-- What an analysis makes of a description, where `after` gives the drafts after its first items
and `result` is what is returned. -/
structure Resolution (desc : Description) (after : List Item → Draft)
    (result : Option Grammar × List Diagnostic) : Prop where
  table : Table desc (after desc.items).grammar
  /-- A production that clashes with one before it changes nothing. -/
  unchanged : ∀ before p rest, desc.items = before ++ .production p :: rest →
    (p.clash? (Description.productions ⟨before⟩)).isSome →
    (after (before ++ [.production p])).grammar = (after before).grammar
  /-- What is reported of two productions of a name is determined by the productions. -/
  clashes : result.2.filter Diagnostic.isClash = Description.clashes [] desc.productions
  /-- A grammar is returned if the declarer of the start symbol has a rule. -/
  returned : result.1.isSome ↔
    ∃ p, Description.declarer? desc.productions startName = some p ∧ p.rule?.isSome
  /-- Otherwise the last that is reported, once, is that there is no start symbol. -/
  required : result.1 = none → ∃ ds, result.2 = ds ++ [Problem.startRequired.unlocated] ∧
    ∀ y ∈ ds, y.code ≠ 0x0024
  started : result.1.isSome → ∀ y ∈ result.2, y.code ≠ 0x0024
  /-- The symbols of the grammar are those of the complete table. -/
  same : ∀ g, result.1 = some g → g.SameSymbols (after desc.items).grammar
  /-- The alternatives of a nonterminal are the expressions of its name, with names resolved. -/
  alternatives : ∀ g n, result.1 = some g → g.Has (.nonterminal n) →
    List.Forall₂ (Resolves g.lookup? g.literal?)
      (Description.expressionsOf desc.productions (g.nonterminal n).name)
      (g.nonterminal n).alternatives

theorem table_ofDeclarations (o : Options) (fs : FileSystem) (desc : Description) :
  Table desc (Draft.ofDeclarations o fs desc).grammar
  := by
  have h := Draft.tabled_afterItems o fs desc desc.items (List.Subset.refl _)
  constructor
  case names => exact h.names
  case declared => exact h.declared
  case undeclared => exact h.undeclared
  case literals => exact h.literals
  case known => exact h.known

/-- A start symbol is declared by the first production of its name that declares any. -/
theorem Table.isSome_start?_iff {desc : Description} {g : Grammar} (h : Table desc g) :
  g.start?.isSome ↔
    ∃ p, Description.declarer? desc.productions startName = some p ∧ p.rule?.isSome
  := by
  rw [start?]
  constructor
  · intro hs
    obtain ⟨n, hn⟩ := Option.isSome_iff_exists.mp hs
    have hl := lookup?_of_nonterminal? hn
    cases hp : Description.declarer? desc.productions startName with
    | none =>
      obtain ⟨_, text, t, ⟨⟩, _⟩ := h.undeclared _ _ hp hl
    | some p =>
      obtain ⟨x, hx, hof⟩ := h.declared _ p hp
      rw [hl] at hx
      cases hx
      exact ⟨p, rfl, hof.1⟩
  · rintro ⟨p, hp, hr⟩
    obtain ⟨x, hx, hof⟩ := h.declared _ p hp
    obtain ⟨e, he⟩ := Option.isSome_iff_exists.mp hr
    cases x with
    | terminal t =>
      rw [IsOf, Description.Production.terminal?_of_rule? he] at hof
      cases hof
    | nonterminal n =>
      rw [nonterminal?, hx]
      rfl

/-- Names are resolved in the order of the text, and no production is lost or added. -/
theorem resolution_ofDescription (o : Options) (fs : FileSystem) (desc : Description) :
  Resolution desc (Draft.afterItems o fs desc) (ofDescription o fs desc)
  := by
  have htable := table_ofDeclarations o fs desc
  have htabled := Draft.tabled_afterItems o fs desc desc.items (List.Subset.refl _)
  have hstart := htable.isSome_start?_iff
  obtain ⟨hnone, heq⟩ | ⟨hsome, heq⟩ := ofDescription_cases o fs desc
  · rw [heq]
    constructor
    case table => exact htable
    case unchanged => exact fun _ _ _ => Draft.grammar_afterItems_of_clash?
    case clashes =>
      rw [List.filter_append]
      apply (congrArg (· ++ _) htabled.clashes).trans (List.append_nil _)
    case returned =>
      rw [← hstart, hnone]
      rfl
    case required => exact fun _ => ⟨_, rfl, htabled.started⟩
    case started => rintro ⟨⟩
    case same => rintro g ⟨⟩
    case alternatives => rintro g n ⟨⟩
  · rw [heq]
    have hall :=
      (Draft.filled_ofDeclarations o fs desc).foldl_defineProduction htable.names desc.productions
    constructor
    case table => exact htable
    case unchanged => exact fun _ _ _ => Draft.grammar_afterItems_of_clash?
    case clashes => exact hall.clashes
    case returned =>
      rw [← hstart, hsome]
      rfl
    case required => rintro ⟨⟩
    case started => exact fun _ => hall.started
    case same =>
      rintro g ⟨⟩
      exact hall.same
    case alternatives =>
      rintro g n ⟨⟩ hn
      rw [hall.same.lookup?, hall.same.literal?, hall.same.name]
      apply hall.alternatives n ((hall.same.has _).mp hn)

end

/-- A rule of the name of a pattern clashes with it, and another pattern of that name does too. -/
example :
  let desc := (Description.parse "Start -> A; A -> 'a'; A -> Start; A -> 'b';" "").1
  (ofDescription ⟨⟨"."⟩, ⟨"."⟩⟩ (.bare []) desc).2.map (fun y => (y.code, y.position)) =
    [(0x1023, 22), (0x1022, 34)]
  := by decide +kernel

end Grammar

end Descent
