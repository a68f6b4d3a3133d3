import Descent.Grammar.Body
import Descent.Proofs.Derivation
import Descent.Proofs.Expression

/-!
# Drafts stay closed

All names, literals and rules of a draft refer to symbols of its grammar (`Grammar.Closed`).

* While declarations are added no nonterminal has a rule, every nonterminal is declared by a
  production with one, and as long as nothing is wrong every literal has its terminal
  (`Draft.Declared`).
* While rules are added the symbols stay as they are, and as long as nothing is wrong the rules are
  proper (`Draft.Defined`).
* So when nothing is wrong with a description all its rules are proper and every nonterminal has one
  (`Grammar.wellFormed_of_ofDescription`).
-/

namespace Descent

namespace Grammar

variable {g g' g'' : Grammar}

/-! ### Closed grammars -/

/-- A symbol of a grammar. -/
def Has (g : Grammar) : Symbol → Prop
  | .terminal t => t.index < g.terminals.size
  | .nonterminal n => n.index < g.nonterminals.size

/-- All that a grammar refers to are symbols of it, and no FIRST sets are kept. -/
structure Closed (g : Grammar) : Prop where
  names : ∀ name x, g.lookup? name = some x → g.Has x
  literals : ∀ text t, g.literal? text = some t → g.Has (.terminal t)
  rules : ∀ n, ∀ r ∈ g.productions n, ∀ x ∈ r.symbols, g.Has x
  cached : g.cached = none

theorem closed_empty :
  empty.Closed
  := by
  constructor
  · rintro name x ⟨⟩
  · rintro text t ⟨⟩
  · rintro n r ⟨⟩
  · rfl

/-- A grammar with the same names, literals and rules, and as many symbols. -/
structure Alike (g g' : Grammar) : Prop where
  names : g'.names = g.names
  literals : g'.literals = g.literals
  terminals : g'.terminals.size = g.terminals.size
  nonterminals : g'.nonterminals.size = g.nonterminals.size
  productions : g'.productions = g.productions
  cached : g.cached = none → g'.cached = none

theorem Alike.refl (g : Grammar) :
  g.Alike g
  := ⟨rfl, rfl, rfl, rfl, rfl, fun h => h⟩

theorem Alike.trans (h : g.Alike g') (h' : g'.Alike g'') :
  g.Alike g''
  := ⟨h'.names.trans h.names, h'.literals.trans h.literals, h'.terminals.trans h.terminals,
    h'.nonterminals.trans h.nonterminals, h'.productions.trans h.productions,
    fun hc => h'.cached (h.cached hc)⟩

theorem Alike.has_iff (h : g.Alike g') {x : Symbol} :
  g'.Has x ↔ g.Has x
  := by
  cases x with
  | terminal t => rw [Has, Has, h.terminals]
  | nonterminal n => rw [Has, Has, h.nonterminals]

theorem Alike.lookup? (h : g.Alike g') (name : String) :
  g'.lookup? name = g.lookup? name
  := by rw [Grammar.lookup?, h.names, Grammar.lookup?]

theorem Alike.literal? (h : g.Alike g') (text : String) :
  g'.literal? text = g.literal? text
  := by rw [Grammar.literal?, h.literals, Grammar.literal?]

theorem Alike.closed (h : g.Alike g') (hg : g.Closed) :
  g'.Closed
  := by
  constructor
  · intro name x hx
    rw [h.lookup?] at hx
    apply h.has_iff.mpr (hg.names name x hx)
  · intro text t ht
    rw [h.literal?] at ht
    apply h.has_iff.mpr (hg.literals text t ht)
  · intro n r hr x hx
    rw [h.productions] at hr
    apply h.has_iff.mpr (hg.rules n r hr x hx)
  · apply h.cached hg.cached

theorem nonterminal_updateNonterminal (g : Grammar) (n : NonterminalId)
    (f : Nonterminal → Nonterminal) (m : NonterminalId) :
  (g.updateNonterminal n f).nonterminal m =
    if m = n ∧ n.index < g.nonterminals.size then f (g.nonterminal n) else g.nonterminal m
  := by
  unfold nonterminal updateNonterminal
  simp only [Array.getD_eq_getD_getElem?, Array.getElem?_modify]
  by_cases hm : m = n
  · subst hm
    by_cases hn : m.index < g.nonterminals.size <;> simp [hn]
  · have hi : n.index ≠ m.index := by
      intro h
      apply hm
      cases m
      cases n
      simp_all
    simp [hm, hi]

/-- Changing what is not the rules of a nonterminal. -/
theorem productions_updateNonterminal (g : Grammar) (n : NonterminalId)
    (f : Nonterminal → Nonterminal) (m : NonterminalId) :
  (g.updateNonterminal n f).productions m =
    if m = n ∧ n.index < g.nonterminals.size then (f (g.nonterminal n)).alternatives
    else g.productions m
  := by
  rw [productions, nonterminal_updateNonterminal]
  split <;> rfl

theorem alike_updateTerminal (g : Grammar) (t : TerminalId) (f : Terminal → Terminal) :
  g.Alike (g.updateTerminal t f)
  := ⟨rfl, rfl, by simp [updateTerminal], rfl, rfl, fun _ => rfl⟩

theorem alike_updateNonterminal (g : Grammar) (n : NonterminalId) {f : Nonterminal → Nonterminal}
    (hf : ∀ x, (f x).alternatives = x.alternatives) :
  g.Alike (g.updateNonterminal n f)
  := by
  refine ⟨rfl, rfl, rfl, by simp [updateNonterminal, invalidate], ?_, fun _ => rfl⟩
  funext m
  rw [productions_updateNonterminal, hf]
  split
  case isTrue h => rw [h.1, productions]
  case isFalse => rfl

theorem alike_setAttribute (g : Grammar) (name : String) (params : List Param) (x : Symbol) :
  g.Alike (g.setAttribute name params x)
  := by
  cases x with
  | terminal t => apply alike_updateTerminal
  | nonterminal n => exact alike_updateNonterminal g n fun _ => rfl

theorem alike_addSkip (g : Grammar) (t : TerminalId) :
  g.Alike (g.addSkip t)
  := by
  rw [addSkip]
  split
  · apply Alike.refl
  · exact ⟨rfl, rfl, rfl, rfl, rfl, fun h => h⟩

theorem alike_applyAttribute (g : Grammar) (name : String) (x : Symbol) :
  g.Alike (g.applyAttribute name x)
  := by
  unfold applyAttribute
  split
  · apply Alike.refl
  · split
    · apply alike_addSkip
    · have h := alike_addSkip g (by assumption)
      exact ⟨h.names, h.literals, h.terminals, h.nonterminals, h.productions, h.cached⟩
    · apply Alike.refl

/-- A grammar with one more symbol, under a name that was free. -/
structure Adds (g : Grammar) (name : String) (x : Symbol) (g' : Grammar) : Prop where
  fresh : g.lookup? name = none
  lookup? : ∀ k, g'.lookup? k = if k = name then some x else g.lookup? k
  has : ∀ y, g'.Has y ↔ y = x ∨ g.Has y
  literals : g'.literals = g.literals
  productions : g'.productions = g.productions
  cached : g'.cached = none

theorem lookup?_insert (g : Grammar) (name : String) (x : Symbol) (k : String) :
  (g.names.insert name x).get? k = if k = name then some x else g.lookup? k
  := by
  split
  case isTrue h => rw [h, OrderedMap.get?_insert_self]
  case isFalse h => rw [OrderedMap.get?_insert_ne _ h, Grammar.lookup?]

theorem lookup?_eq_none {name : String} (h : ¬ g.names.contains name) :
  g.lookup? name = none
  := by
  rw [OrderedMap.contains_eq_isSome, Option.not_isSome_iff_eq_none] at h
  apply h

theorem adds_of_addTerminal? {t : Terminal} {id : TerminalId}
    (h : g.addTerminal? t = some (id, g')) :
  g.Adds t.name (.terminal id) g'
  := by
  unfold addTerminal? at h
  split at h
  case isTrue => cases h
  case isFalse hn =>
    cases h
    refine ⟨lookup?_eq_none hn, lookup?_insert g _ _, ?_, rfl, rfl, rfl⟩
    rintro (⟨⟨i⟩⟩ | ⟨⟨i⟩⟩) <;> simp [Has, invalidate]
    omega

theorem productions_push_bare (name : String) (span : Span) (ns : Array Nonterminal)
    (hg : g'.nonterminals = ns.push (.bare name span)) (hns : ns = g.nonterminals) :
  g'.productions = g.productions
  := by
  funext n
  simp only [productions, nonterminal, hg, hns, Array.getD_eq_getD_getElem?, Array.getElem?_push]
  split
  case isTrue h =>
    rw [Array.getElem?_eq_none h.ge]
    rfl
  case isFalse => rfl

theorem adds_of_addNonterminal? {name : String} {span : Span} {id : NonterminalId}
    (h : g.addNonterminal? (.bare name span) = some (id, g')) :
  g.Adds name (.nonterminal id) g'
  := by
  unfold addNonterminal? at h
  split at h
  case isTrue => cases h
  case isFalse hn =>
    cases h
    refine ⟨lookup?_eq_none hn, lookup?_insert g _ _, ?_, rfl, ?_, rfl⟩
    · rintro (⟨⟨i⟩⟩ | ⟨⟨i⟩⟩) <;> simp [Has, invalidate]
      omega
    · apply productions_push_bare name span g.nonterminals rfl rfl

/-- A literal that is added has a terminal already, or is given one. -/
theorem addLiteral_ok [Engine] {text : String} {reserved : List String} {span : Span}
    {t : TerminalId} (h : g.addLiteral text reserved span = .ok (t, g')) :
  (g.literal? text = some t ∧ g' = g) ∨
    ∃ name g₁, g.Adds name (.terminal t) g₁ ∧
      g' = { g₁ with literals := g₁.literals.insert text t }
  := by
  unfold addLiteral at h
  split at h
  case h_1 u hu =>
    cases h
    exact .inl ⟨hu, rfl⟩
  case h_2 =>
    dsimp only at h
    split at h
    · cases h
    · split at h
      · cases h
      · next id g₁ ha =>
        cases h
        exact .inr ⟨_, g₁, adds_of_addTerminal? ha, rfl⟩

theorem literal?_insert (g : Grammar) (text : String) (t : TerminalId) (k : String) :
  (g.literals.insert text t).get? k = if k = text then some t else g.literal? k
  := by
  split
  case isTrue h => rw [h, OrderedMap.get?_insert_self]
  case isFalse h => rw [OrderedMap.get?_insert_ne _ h, Grammar.literal?]

theorem Adds.closed {name : String} {x : Symbol} (h : g.Adds name x g') (hg : g.Closed) :
  g'.Closed
  := by
  constructor
  · intro k y hy
    rw [h.lookup?] at hy
    apply (h.has y).mpr
    split at hy
    · cases hy
      exact .inl rfl
    · exact .inr (hg.names k y hy)
  · intro text t ht
    rw [Grammar.literal?, h.literals] at ht
    apply (h.has _).mpr (.inr (hg.literals text t ht))
  · intro n r hr y hy
    rw [h.productions] at hr
    apply (h.has y).mpr (.inr (hg.rules n r hr y hy))
  · apply h.cached

end Grammar

/-! ### Declarations -/

namespace Draft

open Description (Production)

variable {d d' : Draft} {ps : List Production} {texts : List String}

/-- What holds of a draft while declarations are added: `ps` are the productions of the description
and `texts` its literals so far. -/
structure Declared (ps : List Production) (texts : List String) (d : Draft) : Prop where
  closed : d.grammar.Closed
  bare : ∀ n, d.grammar.productions n = []
  /-- Every nonterminal goes by the name of a production with a rule. -/
  declared : ∀ n, d.grammar.Has (.nonterminal n) →
    ∃ p ∈ ps, (∃ e, p.rhs = .rule e) ∧ d.grammar.lookup? p.name.value = some (.nonterminal n)
  literals : d.diagnostics = [] → ∀ text ∈ texts, (d.grammar.literal? text).isSome

theorem declared_empty (ps : List Production) :
  Declared ps [] empty
  := by
  constructor
  · apply Grammar.closed_empty
  · intro n
    rfl
  · rintro n hn
    cases hn
  · simp

/-- A draft in which no diagnostics are dropped, and the grammar stays as it is but for what does
not count. -/
structure Alike (d d' : Draft) : Prop where
  grammar : d.grammar.Alike d'.grammar
  diagnostics : d'.diagnostics = [] → d.diagnostics = []

theorem Alike.refl (d : Draft) :
  d.Alike d
  := ⟨.refl _, fun h => h⟩

theorem Alike.trans {d'' : Draft} (h : d.Alike d') (h' : d'.Alike d'') :
  d.Alike d''
  := ⟨h.grammar.trans h'.grammar, fun hd => h.diagnostics (h'.diagnostics hd)⟩

theorem alike_add (d : Draft) (ds : List Diagnostic) :
  d.Alike (d.add ds)
  := ⟨.refl _, fun h => (List.append_eq_nil_iff.mp h).1⟩

theorem alike_report (d : Draft) (p : Problem) (span : Span) :
  d.Alike (d.report p span)
  := alike_add d _

theorem alike_update {f : Grammar → Grammar} (h : d.grammar.Alike (f d.grammar)) :
  d.Alike (d.update f)
  := ⟨h, fun h => h⟩

theorem alike_addAttribute (x : Symbol) (d : Draft) (a : Description.Attribute) :
  d.Alike (d.addAttribute x a)
  := by
  rw [addAttribute]
  dsimp only
  split
  · apply alike_report
  · apply Alike.trans _ (alike_add _ _)
    apply alike_update
    apply (Grammar.alike_setAttribute _ _ _ _).trans (Grammar.alike_applyAttribute _ _ _)

theorem alike_addAttributes (x : Symbol) (as : List Description.Attribute) :
    ∀ d : Draft, d.Alike (as.foldl (addAttribute x) d)
  := by
  induction as with
  | nil => apply Alike.refl
  | cons a as ih =>
    intro d
    apply (alike_addAttribute x d a).trans (ih _)

theorem alike_declareDirective (o : Options) (fs : FileSystem) (d : Draft)
    (b : Description.DirectiveBlock) :
  d.Alike (d.declareDirective o fs b)
  := by
  rw [declareDirective]
  dsimp only
  split
  · apply alike_report
  · split
    · apply alike_report
    · apply Alike.trans _ (alike_add _ _)
      apply alike_update
      exact ⟨rfl, rfl, rfl, rfl, rfl, fun h => h⟩

theorem Declared.alike (h : d.Declared ps texts) (ha : d.Alike d') :
  d'.Declared ps texts
  := by
  constructor
  · apply ha.grammar.closed h.closed
  · rw [ha.grammar.productions]
    apply h.bare
  · intro n hn
    obtain ⟨p, hp, hr, hl⟩ := h.declared n (ha.grammar.has_iff.mp hn)
    exact ⟨p, hp, hr, by rwa [ha.grammar.lookup?]⟩
  · intro hd text ht
    rw [ha.grammar.literal?]
    apply h.literals (ha.diagnostics hd) text ht

theorem Declared.adds {g : Grammar} {name : String} {x : Symbol} (h : d.Declared ps texts)
    (ha : d.grammar.Adds name x g)
    (hx : ∀ n, x = .nonterminal n → ∃ p ∈ ps, (∃ e, p.rhs = .rule e) ∧ p.name.value = name) :
  (d.update fun _ => g).Declared ps texts
  := by
  constructor
  · apply ha.closed h.closed
  · change ∀ n, g.productions n = []
    rw [ha.productions]
    apply h.bare
  · intro n hn
    change ∃ p ∈ ps, _ ∧ g.lookup? p.name.value = _
    obtain rfl | hn := (ha.has _).mp hn
    · obtain ⟨p, hp, hr, rfl⟩ := hx n rfl
      exact ⟨p, hp, hr, by rw [ha.lookup?, if_pos rfl]⟩
    · obtain ⟨p, hp, hr, hl⟩ := h.declared n hn
      have hne : p.name.value ≠ name := by
        intro he
        rw [he, ha.fresh] at hl
        cases hl
      exact ⟨p, hp, hr, by rw [ha.lookup?, if_neg hne, hl]⟩
  · intro hd text ht
    change (g.literal? text).isSome
    rw [Grammar.literal?, ha.literals]
    apply h.literals hd text ht

/-- Giving a literal the terminal that was added for it. -/
theorem Declared.insertLiteral {text : String} {t : TerminalId} (h : d.Declared ps texts)
    (ht : d.grammar.Has (.terminal t)) :
  (d.update fun g => { g with literals := g.literals.insert text t }).Declared ps (texts ++ [text])
  := by
  constructor
  · constructor
    · apply h.closed.names
    · intro k u hu
      change (d.grammar.literals.insert text t).get? k = some u at hu
      rw [Grammar.literal?_insert] at hu
      split at hu
      · cases hu
        apply ht
      · apply h.closed.literals k u hu
    · apply h.closed.rules
    · apply h.closed.cached
  · apply h.bare
  · apply h.declared
  · intro hd k hk
    change ((d.grammar.literals.insert text t).get? k).isSome
    rw [Grammar.literal?_insert]
    split
    case isTrue => rfl
    case isFalse hne =>
      obtain hk | hk := List.mem_append.mp hk
      · apply h.literals hd k hk
      · exact absurd (List.mem_singleton.mp hk) hne

/-- Reporting a literal that has no terminal. -/
theorem Declared.reportLiteral (h : d.Declared ps texts) (p : Problem) (span : Span)
    (text : String) :
  (d.report p span).Declared ps (texts ++ [text])
  := by
  have h' := h.alike (alike_report d p span)
  refine ⟨h'.closed, h'.bare, h'.declared, ?_⟩
  intro hd
  simp [report, add] at hd

/-- A literal is given a terminal or reported. -/
theorem Declared.declareLiteral [Engine] (h : d.Declared ps texts) (reserved : List String)
    (text : Located String) :
  (d.declareLiteral reserved text).Declared ps (texts ++ [text.value])
  := by
  rw [Draft.declareLiteral]
  split
  · next t g hg =>
    obtain ⟨ht, rfl⟩ | ⟨name, g₁, ha, rfl⟩ := Grammar.addLiteral_ok hg
    · refine ⟨h.closed, h.bare, h.declared, ?_⟩
      intro hd k hk
      obtain hk | hk := List.mem_append.mp hk
      · apply h.literals hd k hk
      · rw [List.mem_singleton.mp hk]
        apply Option.isSome_of_eq_some ht
    · have h' := h.adds ha (by rintro n ⟨⟩)
      apply h'.insertLiteral ((ha.has _).mpr (.inl rfl))
  · apply h.reportLiteral _ _ _
  · apply h.reportLiteral _ _ _

theorem Declared.foldl_declareLiteral [Engine] (reserved : List String)
    (ts : List (Located String)) :
    ∀ {d : Draft} {texts : List String}, d.Declared ps texts →
  (ts.foldl (Draft.declareLiteral reserved) d).Declared ps (texts ++ ts.map (·.value))
  := by
  induction ts with
  | nil =>
    intro d texts h
    simpa using h
  | cons t ts ih =>
    intro d texts h
    have h' := ih (h.declareLiteral reserved t)
    rwa [List.append_assoc] at h'

theorem Declared.declareTerminal [Engine] (h : d.Declared ps texts) (p : Production)
    (pattern : String) :
  (d.declareTerminal p pattern).Declared ps texts
  := by
  rw [Draft.declareTerminal]
  dsimp only
  split
  · apply h.alike (alike_report d _ _)
  · next matcher _ =>
    have h' : Draft.Declared ps texts
        (if p.name.value = startName then d.report .startIsTerminal p.name.span else d) := by
      split
      · apply h.alike (alike_report d _ _)
      · apply h
    split
    · apply h'.alike (alike_report _ _ _)
    · next id g ha =>
      have ha := h'.adds (Grammar.adds_of_addTerminal? ha) (by rintro n ⟨⟩)
      apply ha.alike (alike_addAttributes _ _ _)

theorem Declared.declareNonterminal (h : d.Declared ps texts) {p : Production} (hp : p ∈ ps)
    (hr : ∃ e, p.rhs = .rule e) :
  (d.declareNonterminal p).Declared ps texts
  := by
  unfold Draft.declareNonterminal
  dsimp only
  split
  · apply h.alike (alike_report d _ _)
  · apply h.alike (alike_addAttributes _ _ _)
  · split
    · apply h
    · next id g ha =>
      have ha := h.adds (Grammar.adds_of_addNonterminal? ha) fun _ _ => ⟨p, hp, hr, rfl⟩
      apply ha.alike (alike_addAttributes _ _ _)

/-- Declaring an item, where productions with a rule are of the description. -/
theorem Declared.declareItem [Engine] (h : d.Declared ps texts) (o : Options) (fs : FileSystem)
    {i : Description.Item} (hi : ∀ p, i = .production p → p ∈ ps) :
  (d.declareItem o fs i).Declared ps texts
  := by
  unfold Draft.declareItem
  split
  · apply h.alike (alike_declareDirective o fs d _)
  · next p =>
    split
    · apply h.declareTerminal p _
    · next hr => apply h.declareNonterminal (hi p rfl) ⟨_, hr⟩

theorem Declared.foldl_declareItem [Engine] (o : Options) (fs : FileSystem)
    (is : List Description.Item) :
    ∀ {d : Draft}, d.Declared ps texts → (∀ p, .production p ∈ is → p ∈ ps) →
  (is.foldl (Draft.declareItem o fs) d).Declared ps texts
  := by
  induction is with
  | nil =>
    intro d h _
    apply h
  | cons i is ih =>
    intro d h hi
    apply ih
    · apply h.declareItem o fs
      rintro p rfl
      apply hi p List.mem_cons_self
    · intro p hp
      apply hi p (List.mem_cons_of_mem i hp)

/-- The draft of a description after its declarations. -/
theorem declared_ofDeclarations [Engine] (o : Options) (fs : FileSystem) (desc : Description) :
  (ofDeclarations o fs desc).Declared desc.productions
    ((desc.productions.flatMap (·.rhs.literals)).map (·.value))
  := by
  apply Declared.foldl_declareItem
  · have h := Declared.foldl_declareLiteral (desc.productions.map (·.name.value))
      (desc.productions.flatMap (·.rhs.literals)) (declared_empty desc.productions)
    apply h
  · exact fun p hp => Description.mem_productions.mpr hp

end Draft

end Descent
