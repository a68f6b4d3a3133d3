import Descent.Proofs.Body
import Descent.Proofs.Caching

/-!
# What declarations and rules do to a draft

Attributes and directives leave the symbols of a grammar as they are (`Grammar.core`), and what they
report is no problem with a name (`Draft.Annotates`).  So each declaration comes down to one of a
few cases.

* An item adds the symbol of its production, annotates a symbol that is there, or is reported and
  declares nothing (`Draft.declares_declareItem`).
* A literal text has a terminal, is given one under a name that no production has, or is reported
  (`Draft.declaresLiteral_declareLiteral`).
* Adding a rule changes one nonterminal and the number of the next node, and nothing else
  (`Draft.define_eq_write`).
-/

namespace Descent

open Description (Production Item Expr Rhs)

/-! ### Grammars without annotations -/

/-- A terminal without its attributes. -/
def Terminal.core (t : Terminal) : Terminal := { t with attributes := .empty }

/-- A nonterminal without its attributes. -/
def Nonterminal.core (n : Nonterminal) : Nonterminal := { n with attributes := .empty }

/-- A change that maps to nothing is not seen after mapping. -/
theorem map_modify_of_comp_eq {α β : Type} {f : α → α} {h : α → β} (hf : h ∘ f = h) (xs : Array α)
    (i : Nat) :
  (xs.modify i f).map h = xs.map h
  := by
  apply Array.ext
  · simp
  · intro j hj hj'
    rw [Array.getElem_map, Array.getElem_map, Array.getElem_modify]
    split
    · apply congrFun hf
    · rfl

namespace Grammar

/-- A grammar without what attributes and directives change. -/
def core (g : Grammar) : Grammar :=
  { g with
    terminals := g.terminals.map Terminal.core
    nonterminals := g.nonterminals.map Nonterminal.core
    skip := []
    fileAndLine := none
    directives := .empty
    cached := none }

variable {g g' : Grammar}

theorem core_terminal (t : TerminalId) :
  g.core.terminal t = (g.terminal t).core
  := by
  rw [terminal, terminal, core, Array.getD_eq_getD_getElem?, Array.getElem?_map,
    Array.getD_eq_getD_getElem?]
  cases g.terminals[t.index]? <;> rfl

theorem core_nonterminal (n : NonterminalId) :
  g.core.nonterminal n = (g.nonterminal n).core
  := by
  rw [nonterminal, nonterminal, core, Array.getD_eq_getD_getElem?, Array.getElem?_map,
    Array.getD_eq_getD_getElem?]
  cases g.nonterminals[n.index]? <;> rfl

theorem core_has (x : Symbol) :
  g.core.Has x ↔ g.Has x
  := by cases x <;> simp [Has, core]

theorem core_setAttribute (name : String) (params : List Param) (x : Symbol) :
  (g.setAttribute name params x).core = g.core
  := by
  cases x with
  | terminal t =>
    simp only [setAttribute, updateTerminal, core, invalidate]
    rw [map_modify_of_comp_eq]
    rfl
  | nonterminal n =>
    simp only [setAttribute, updateNonterminal, core, invalidate]
    rw [map_modify_of_comp_eq]
    rfl

theorem core_addSkip (t : TerminalId) :
  (g.addSkip t).core = g.core
  := by
  rw [addSkip]
  split <;> rfl

theorem core_applyAttribute (name : String) (x : Symbol) :
  (g.applyAttribute name x).core = g.core
  := by
  unfold applyAttribute
  split
  · rfl
  · split
    · apply core_addSkip
    · apply core_addSkip
    · rfl

section

variable (h : g'.core = g.core)

include h

theorem lookup?_of_core (name : String) :
  g'.lookup? name = g.lookup? name
  := by
  change g'.core.lookup? name = g.core.lookup? name
  rw [h]

theorem literal?_of_core (text : String) :
  g'.literal? text = g.literal? text
  := by
  change g'.core.literal? text = g.core.literal? text
  rw [h]

theorem nextRule_of_core :
  g'.nextRule = g.nextRule
  := by
  change g'.core.nextRule = g.core.nextRule
  rw [h]

theorem has_of_core (x : Symbol) :
  g'.Has x ↔ g.Has x
  := by rw [← core_has, h, core_has]

theorem terminal_of_core (t : TerminalId) :
  (g'.terminal t).core = (g.terminal t).core
  := by rw [← core_terminal, h, core_terminal]

theorem nonterminal_of_core (n : NonterminalId) :
  (g'.nonterminal n).core = (g.nonterminal n).core
  := by rw [← core_nonterminal, h, core_nonterminal]

end

end Grammar

/-! ### Remarks -/

/-- Whether a problem is about the name of a symbol, or a reference to one in a code. -/
def Problem.isNaming : Problem → Bool
  | startRequired | unmatchedVariable _ | duplicateTerminal _ | nameClash _ | noNameLeft _ => true
  | _ => false

/-- A diagnostic at one of the given spans that is about no name. -/
def Diagnostic.IsRemark (spans : List Span) (y : Diagnostic) : Prop :=
  ∃ p : Problem, p.isNaming = false ∧ ∃ s ∈ spans, y = p.located s

theorem Diagnostic.IsRemark.mono {spans spans' : List Span} {y : Diagnostic} (h : y.IsRemark spans)
    (hs : spans ⊆ spans') :
  y.IsRemark spans'
  := by
  obtain ⟨p, hp, s, hmem, rfl⟩ := h
  exact ⟨p, hp, s, hs hmem, rfl⟩

/-- A problem about no name has a number of its own. -/
theorem Problem.code_of_isNaming {p : Problem} (hp : p.isNaming = false) :
  p.code ≠ 0x0024 ∧ p.code ≠ 0x1016 ∧ p.code ≠ 0x1022 ∧ p.code ≠ 0x1023
  := by cases p <;> simp_all [isNaming, code]

theorem Problem.isRemark {p : Problem} {spans : List Span} {s : Span} (hp : p.isNaming = false)
    (hs : s ∈ spans) :
  (p.located s).IsRemark spans
  := ⟨p, hp, s, hs, rfl⟩

/-! ### Spans of items -/

namespace Description

/-- The spans of an attribute. -/
def Attribute.spans (a : Attribute) : List Span := a.name.span :: a.span :: a.params.map (·.span)

/-- The spans of an entry of a directive. -/
def Entry.spans (e : Entry) : List Span := [e.key.span, e.value.span]

mutual

/-- The spans of the names and the literal texts in an expression. -/
def Expr.spans : Expr → List Span
  | .ident name => [name.span]
  | .literal text => [text.span]
  | .choice es | .concat es => Expr.spansAll es
  | .option e | .zeroOrMore e | .oneOrMore e => Expr.spans e

/-- The spans of the names and the literal texts in several expressions. -/
def Expr.spansAll : List Expr → List Span
  | [] => []
  | e :: es => Expr.spans e ++ Expr.spansAll es

end

/-- The spans of a right-hand side. -/
def Rhs.spans : Rhs → List Span
  | pattern text => [text.span]
  | rule e => e.spans

/-- The spans of a production but for its code. -/
def Production.spans (p : Production) : List Span :=
  p.name.span :: (p.attributes.flatMap (·.spans) ++ p.rhs.spans)

/-- The spans of an item but for a code. -/
def Item.spans : Item → List Span
  | directive b => b.name.span :: b.entries.flatMap (·.spans)
  | production p => p.spans

mutual

/-- The literal texts in an expression stand at spans of it. -/
theorem Expr.span_mem_spans_of_mem_literals {text : Located String} : ∀ (e : Expr),
    text ∈ e.literals →
  text.span ∈ e.spans
  | .ident _, h => absurd h List.not_mem_nil
  | .literal _, h => by
      rw [List.mem_singleton.mp h]
      apply List.mem_cons_self
  | .choice es, h | .concat es, h => span_mem_spansAll_of_mem_literalsAll es h
  | .option e, h | .zeroOrMore e, h | .oneOrMore e, h => span_mem_spans_of_mem_literals e h

theorem Expr.span_mem_spansAll_of_mem_literalsAll {text : Located String} : ∀ (es : List Expr),
    text ∈ literalsAll es →
  text.span ∈ spansAll es
  | [], h => absurd h List.not_mem_nil
  | e :: es, h => by
      obtain h | h := List.mem_append.mp h
      · apply List.mem_append_left _ (span_mem_spans_of_mem_literals e h)
      · apply List.mem_append_right _ (span_mem_spansAll_of_mem_literalsAll es h)

end

theorem Rhs.span_mem_spans_of_mem_literals {r : Rhs} {text : Located String}
    (h : text ∈ r.literals) :
  text.span ∈ r.spans
  := by
  cases r with
  | pattern => cases h
  | rule e => apply e.span_mem_spans_of_mem_literals h

end Description

/-! ### Annotations -/

namespace Draft

/-- A draft with the symbols of another one, and perhaps more remarks at the given spans. -/
structure Annotates (spans : List Span) (d d' : Draft) : Prop where
  core : d'.grammar.core = d.grammar.core
  diagnostics : ∃ ds, d'.diagnostics = d.diagnostics ++ ds ∧ ∀ y ∈ ds, y.IsRemark spans

variable {spans : List Span} {d d' d'' : Draft}

theorem Annotates.refl (spans : List Span) (d : Draft) :
  d.Annotates spans d
  := ⟨rfl, [], (List.append_nil _).symm, List.forall_mem_nil _⟩

theorem Annotates.trans (h : Annotates spans d d') (h' : Annotates spans d' d'') :
  Annotates spans d d''
  := by
  obtain ⟨hc, ds, hds, hr⟩ := h
  obtain ⟨hc', ds', hds', hr'⟩ := h'
  refine ⟨hc'.trans hc, ds ++ ds', ?_, List.forall_mem_append.mpr ⟨hr, hr'⟩⟩
  rw [hds', hds, List.append_assoc]

theorem Annotates.mono {spans' : List Span} (h : Annotates spans d d') (hs : spans ⊆ spans') :
  Annotates spans' d d'
  := by
  obtain ⟨hc, ds, hds, hr⟩ := h
  exact ⟨hc, ds, hds, fun y hy => (hr y hy).mono hs⟩

theorem annotates_add (d : Draft) {ds : List Diagnostic} (h : ∀ y ∈ ds, y.IsRemark spans) :
  d.Annotates spans (d.add ds)
  := ⟨rfl, ds, rfl, h⟩

theorem annotates_report (d : Draft) {p : Problem} {s : Span} (hp : p.isNaming = false)
    (hs : s ∈ spans) :
  d.Annotates spans (d.report p s)
  := annotates_add d (List.forall_mem_singleton.mpr (p.isRemark hp hs))

theorem annotates_update (spans : List Span) (d : Draft) {f : Grammar → Grammar}
    (h : (f d.grammar).core = d.grammar.core) :
  d.Annotates spans (d.update f)
  := ⟨h, [], (List.append_nil _).symm, List.forall_mem_nil _⟩

end Draft

namespace Description

theorem Param.isNaming_of_problem? {p : Param} {q : Problem} (h : p.problem? = some q) :
  q.isNaming = false
  := by
  unfold Param.problem? at h
  split at h
  · cases h
  · cases h
    rfl
  · split at h <;> cases h
    rfl
  · split at h <;> cases h
    rfl

namespace Attribute

variable (a : Attribute)

theorem span_mem_spans {p : Located Param} (hp : p ∈ a.params) :
  p.span ∈ a.spans
  := List.mem_cons_of_mem _ (List.mem_cons_of_mem _ (List.mem_map_of_mem hp))

theorem isRemark_paramDiagnostics :
  ∀ y ∈ a.paramDiagnostics, y.IsRemark a.spans
  := by
  intro y hy
  obtain ⟨p, hp, hy⟩ := List.mem_filterMap.mp hy
  obtain ⟨q, hq, rfl⟩ := Option.map_eq_some_iff.mp hy
  apply q.isRemark (Param.isNaming_of_problem? hq) (a.span_mem_spans hp)

theorem isRemark_colorDiagnostics :
  ∀ y ∈ a.colorDiagnostics, y.IsRemark a.spans
  := by
  unfold colorDiagnostics
  dsimp only
  rw [List.forall_mem_append]
  constructor
  · split
    · simp
    · exact List.forall_mem_singleton.mpr (Problem.isRemark rfl List.mem_cons_self)
  · intro y hy
    obtain ⟨p, hp, rfl⟩ := List.mem_map.mp hy
    have hp := List.mem_of_find?_eq_some (Option.mem_toList.mp hp)
    apply Problem.isRemark rfl (a.span_mem_spans hp)

theorem isRemark_diagnostics (ofTerminal : Bool) :
  ∀ y ∈ a.diagnostics ofTerminal, y.IsRemark a.spans
  := by
  have hnot : ∀ y ∈ (if ofTerminal then [] else [a.notAllowed]), y.IsRemark a.spans := by
    split
    · simp
    · exact List.forall_mem_singleton.mpr
        (Problem.isRemark rfl (List.mem_cons_of_mem _ List.mem_cons_self))
  unfold diagnostics
  dsimp only
  split
  · apply hnot
  · apply hnot
  · apply hnot
  · apply List.forall_mem_append.mpr ⟨hnot, a.isRemark_colorDiagnostics⟩
  · exact List.forall_mem_singleton.mpr (Problem.isRemark rfl List.mem_cons_self)

end Attribute

theorem isNaming_of_valueProblem? {o : Options} {fs : FileSystem} {key value : String} {q : Problem}
    (h : o.valueProblem? fs key value = some q) :
  q.isNaming = false
  := by
  unfold Options.valueProblem? at h
  split at h
  case h_4 => cases h
  all_goals
    obtain ⟨-, h⟩ := Option.ite_none_right_eq_some.mp h
    rw [← Option.some_inj.mp h]
    rfl

theorem Entry.isRemark_diagnostics (e : Entry) (o : Options) (fs : FileSystem)
    (kind : Directive.Kind) :
  ∀ y ∈ e.diagnostics o fs kind, y.IsRemark e.spans
  := by
  unfold Entry.diagnostics
  dsimp only
  split
  · exact List.forall_mem_singleton.mpr (Problem.isRemark rfl List.mem_cons_self)
  · split
    · intro y hy
      obtain ⟨q, hq, rfl⟩ := List.mem_map.mp hy
      have hq := isNaming_of_valueProblem? (Option.mem_toList.mp hq)
      apply q.isRemark hq (List.mem_cons_of_mem _ List.mem_cons_self)
    · simp

end Description

namespace Draft

variable {d d' : Draft}

theorem annotates_addAttribute (x : Symbol) (d : Draft) (a : Description.Attribute) :
  d.Annotates a.spans (d.addAttribute x a)
  := by
  rw [addAttribute]
  dsimp only
  split
  · apply annotates_report d rfl List.mem_cons_self
  · apply Annotates.trans (annotates_update _ _ _) (annotates_add _ _)
    · rw [Grammar.core_applyAttribute, Grammar.core_setAttribute]
    · apply List.forall_mem_append.mpr
        ⟨a.isRemark_paramDiagnostics, a.isRemark_diagnostics _⟩

theorem annotates_addAttributes (x : Symbol) (as : List Description.Attribute) :
    ∀ d : Draft, d.Annotates (as.flatMap (·.spans)) (as.foldl (addAttribute x) d)
  := by
  induction as with
  | nil => apply Annotates.refl
  | cons a as ih =>
    intro d
    rw [List.flatMap_cons]
    apply Annotates.trans ((annotates_addAttribute x d a).mono (List.subset_append_left _ _))
    apply (ih _).mono (List.subset_append_right _ _)

theorem annotates_declareDirective (o : Options) (fs : FileSystem) (d : Draft)
    (b : Description.DirectiveBlock) :
  d.Annotates (Item.directive b).spans (d.declareDirective o fs b)
  := by
  rw [declareDirective]
  dsimp only
  split
  · apply annotates_report d rfl List.mem_cons_self
  · split
    · apply annotates_report d rfl List.mem_cons_self
    · apply Annotates.trans (annotates_update _ _ _) (annotates_add _ _)
      · rfl
      · intro y hy
        obtain ⟨e, he, hy⟩ := List.mem_flatMap.mp hy
        apply (e.isRemark_diagnostics o fs _ y hy).mono
        apply List.subset_cons_of_subset
        intro s hs
        apply List.mem_flatMap_of_mem he hs

end Draft

/-! ### Adding symbols -/

namespace Grammar

/-- A grammar with one more terminal. -/
def withTerminal (g : Grammar) (t : Terminal) : Grammar :=
  { g with
    terminals := g.terminals.push t
    names := g.names.insert t.name (.terminal ⟨g.terminals.size⟩)
    cached := none }

/-- A grammar with one more nonterminal. -/
def withNonterminal (g : Grammar) (n : Nonterminal) : Grammar :=
  { g with
    nonterminals := g.nonterminals.push n
    names := g.names.insert n.name (.nonterminal ⟨g.nonterminals.size⟩)
    cached := none }

/-- A grammar in which a text has a terminal of its own. -/
def withLiteral (g : Grammar) (text : String) (t : Terminal) : Grammar :=
  { g.withTerminal t with literals := g.literals.insert text ⟨g.terminals.size⟩ }

variable (g : Grammar)

theorem addTerminal?_eq (t : Terminal) :
  g.addTerminal? t =
    if (g.lookup? t.name).isSome then none else some (⟨g.terminals.size⟩, g.withTerminal t)
  := by
  rw [addTerminal?, contains_names]
  rfl

theorem addNonterminal?_eq (n : Nonterminal) :
  g.addNonterminal? n =
    if (g.lookup? n.name).isSome then none else some (⟨g.nonterminals.size⟩, g.withNonterminal n)
  := by
  rw [addNonterminal?, contains_names]
  rfl

theorem literal?_withLiteral (text : String) (t : Terminal) (k : String) :
  (g.withLiteral text t).literal? k =
    if k = text then some ⟨g.terminals.size⟩ else g.literal? k
  := literal?_insert g _ _ k

theorem terminal_withTerminal (t : Terminal) (u : TerminalId) :
  (g.withTerminal t).terminal u = if u.index = g.terminals.size then t else g.terminal u
  := by
  rw [terminal, withTerminal, Array.getD_eq_getD_getElem?, Array.getElem?_push]
  split
  · rfl
  · rw [terminal, Array.getD_eq_getD_getElem?]

theorem nonterminal_withNonterminal (n : Nonterminal) (m : NonterminalId) :
  (g.withNonterminal n).nonterminal m =
    if m.index = g.nonterminals.size then n else g.nonterminal m
  := by
  rw [nonterminal, withNonterminal, Array.getD_eq_getD_getElem?, Array.getElem?_push]
  split
  · rfl
  · rw [nonterminal, Array.getD_eq_getD_getElem?]

end Grammar

/-! ### Items -/

namespace Description.Production

/-- The terminal that a production declares: it has a pattern that compiles. -/
def terminal? [Engine] (p : Production) : Option Terminal :=
  match p.rhs with
  | .pattern text =>
    (Engine.anchored text.value p.ignoresCase).toOption.map fun matcher =>
      { Terminal.plain p.name.value text.value matcher p.name.span with
        ignoreCase := p.ignoresCase }
  | .rule _ => none

/-- The rule of a production. -/
def rule? (p : Production) : Option Expr :=
  match p.rhs with
  | .pattern _ => none
  | .rule e => some e

theorem name_of_terminal? [Engine] {p : Production} {t : Terminal} (h : p.terminal? = some t) :
  t.name = p.name.value
  := by
  unfold terminal? at h
  split at h
  · obtain ⟨matcher, _, rfl⟩ := Option.map_eq_some_iff.mp h
    rfl
  · cases h

end Description.Production

namespace Draft

/-- What declaring an item comes to. -/
inductive Declares [Engine] (d : Draft) : Item → Draft → Prop
  | directive {b : Description.DirectiveBlock} {d' : Draft}
      (h : d.Annotates (Item.directive b).spans d') : Declares d (.directive b) d'
  /-- A pattern that does not compile is reported. -/
  | invalid {p : Production} {reason : String} (ht : p.terminal? = none) (hr : p.rule? = none) :
      Declares d (.production p) (d.report (.invalidPattern p.name.value reason) p.name.span)
  | terminal {p : Production} {t : Terminal} {d' : Draft} (ht : p.terminal? = some t)
      (hl : d.grammar.lookup? p.name.value = none)
      (h : (d.update (·.withTerminal t)).Annotates p.spans d') : Declares d (.production p) d'
  /-- A terminal whose name is taken is reported. -/
  | duplicate {p : Production} {t : Terminal} {d' : Draft} (ht : p.terminal? = some t)
      (hl : (d.grammar.lookup? p.name.value).isSome) (hg : d'.grammar = d.grammar)
      (h : d.Annotates p.spans d') :
      Declares d (.production p) (d'.report (.duplicateTerminal p.name.value) p.name.span)
  | nonterminal {p : Production} {e : Expr} {d' : Draft} (hr : p.rule? = some e)
      (hl : d.grammar.lookup? p.name.value = none)
      (h : (d.update (·.withNonterminal (.bare p.name.value p.name.span))).Annotates p.spans d') :
      Declares d (.production p) d'
  /-- A nonterminal is declared again. -/
  | again {p : Production} {e : Expr} {n : NonterminalId} {d' : Draft} (hr : p.rule? = some e)
      (hl : d.grammar.lookup? p.name.value = some (.nonterminal n)) (h : d.Annotates p.spans d') :
      Declares d (.production p) d'
  /-- A rule with the name of a terminal is reported. -/
  | clash {p : Production} {e : Expr} {t : TerminalId} (hr : p.rule? = some e)
      (hl : d.grammar.lookup? p.name.value = some (.terminal t)) :
      Declares d (.production p) (d.report (.nameClash p.name.value) p.name.span)

variable (d : Draft)

theorem attributes_subset_spans (p : Production) :
  p.attributes.flatMap (·.spans) ⊆ p.spans
  := fun _ hs => List.mem_cons_of_mem _ (List.mem_append_left _ hs)

theorem declares_declareTerminal [Engine] {p : Production} {text : Located String}
    (hp : p.rhs = .pattern text) :
  d.Declares (.production p) (d.declareTerminal p text.value)
  := by
  have hr : p.rule? = none := by rw [Production.rule?, hp]
  rw [declareTerminal]
  dsimp only
  split
  · next e he =>
    refine .invalid ?_ hr
    rw [Production.terminal?, hp]
    dsimp only
    rw [he]
    rfl
  · next matcher hmatcher =>
    let t := { Terminal.plain p.name.value text.value matcher p.name.span with
      ignoreCase := p.ignoresCase }
    have ht : p.terminal? = some t := by
      rw [Production.terminal?, hp]
      dsimp only
      rw [hmatcher]
      rfl
    -- The name of the start symbol is reported in any case.
    obtain ⟨ds, hds, hremarks⟩ : ∃ ds,
        (if p.name.value = startName then d.report .startIsTerminal p.name.span else d) =
          d.add ds ∧ ∀ y ∈ ds, y.IsRemark p.spans := by
      split
      · exact ⟨_, rfl, List.forall_mem_singleton.mpr (Problem.isRemark rfl List.mem_cons_self)⟩
      · refine ⟨[], ?_, List.forall_mem_nil _⟩
        rw [add, List.append_nil]
    have hadd : (d.add ds).grammar.addTerminal? t = _ := Grammar.addTerminal?_eq d.grammar t
    rw [hds, hadd, Production.name_of_terminal? ht]
    by_cases hl : (d.grammar.lookup? p.name.value).isSome
    · rw [if_pos hl]
      exact Declares.duplicate ht hl rfl (annotates_add d hremarks)
    · rw [if_neg hl]
      apply Declares.terminal ht (Option.not_isSome_iff_eq_none.mp hl)
      apply Annotates.trans (annotates_add _ hremarks)
      apply (annotates_addAttributes _ _ _).mono (attributes_subset_spans p)

theorem declares_declareNonterminal [Engine] {p : Production} {e : Expr} (hp : p.rhs = .rule e) :
  d.Declares (.production p) (d.declareNonterminal p)
  := by
  have hr : p.rule? = some e := by rw [Production.rule?, hp]
  have hannotates : ∀ (n : NonterminalId) (d : Draft),
      d.Annotates p.spans (p.attributes.foldl (addAttribute (.nonterminal n)) d) := fun n d =>
    (annotates_addAttributes _ _ d).mono (attributes_subset_spans p)
  unfold declareNonterminal
  dsimp only
  split
  · next hl => apply Declares.clash hr hl
  · next hl => apply Declares.again hr hl (hannotates _ _)
  · next hl =>
    have hadd := Grammar.addNonterminal?_eq d.grammar (.bare p.name.value p.name.span)
    rw [Nonterminal.bare, hl, ← Nonterminal.bare] at hadd
    rw [hadd]
    apply Declares.nonterminal hr hl (hannotates _ _)

/-- Declaring an item adds a symbol, annotates one, or is reported. -/
theorem declares_declareItem [Engine] (o : Options) (fs : FileSystem) (i : Item) :
  d.Declares i (d.declareItem o fs i)
  := by
  cases i with
  | directive b => apply Declares.directive (annotates_declareDirective o fs d b)
  | production p =>
    rw [declareItem]
    split
    · next hp => apply declares_declareTerminal d hp
    · next hp => apply declares_declareNonterminal d hp

end Draft

/-! ### Literals -/

/-- The terminal of a literal text. -/
def Terminal.ofLiteral [Engine] (name text : String) (matcher : Matcher) (span : Span) : Terminal :=
  { Terminal.plain name (Engine.escape text) matcher span with
    niceName? := some text
    literal := true }

namespace Grammar

/-- The name that the terminal of a literal text is given. -/
def freeName (g : Grammar) (text : String) (reserved : List String) : String :=
  freshName (fun name => g.names.contains name || reserved.contains name)
    (g.names.entries.length + reserved.length) (literalName text g.literals.entries.length)

variable {g : Grammar} {text : String}

theorem freeName_free (g : Grammar) (text : String) (reserved : List String) :
  g.lookup? (g.freeName text reserved) = none ∧ g.freeName text reserved ∉ reserved
  := by
  have hfree : ¬ (g.names.contains (g.freeName text reserved) ||
      reserved.contains (g.freeName text reserved)) := not_taken_freshName g reserved _
  rw [Bool.or_eq_true_iff, not_or, contains_names, Option.not_isSome_iff_eq_none] at hfree
  exact ⟨hfree.1, fun h => hfree.2 (List.contains_iff_mem.mpr h)⟩

/-- A literal text without a terminal is given one, under a name that is free. -/
theorem addLiteral_eq [Engine] {matcher : Matcher} (hl : g.literal? text = none)
    (hc : Engine.anchored (Engine.escape text) false = .ok matcher) (reserved : List String)
    (span : Span) :
  g.addLiteral text reserved span =
    .ok (⟨g.terminals.size⟩,
      g.withLiteral text (.ofLiteral (g.freeName text reserved) text matcher span))
  := by
  have hadd := addTerminal?_eq g (.ofLiteral (g.freeName text reserved) text matcher span)
  rw [if_neg (by simp [Terminal.ofLiteral, Terminal.plain, freeName_free])] at hadd
  unfold addLiteral
  split
  case h_1 t ht => cases hl.symm.trans ht
  case h_2 =>
    dsimp only
    split
    case h_1 e he => cases hc.symm.trans he
    case h_2 matcher' hmatcher =>
      cases hc.symm.trans hmatcher
      split
      case h_1 hnone => cases hadd.symm.trans hnone
      case h_2 id g' hsome =>
        cases hadd.symm.trans hsome
        rfl

/-- A literal text without a terminal is given one, under a name that is neither taken nor
reserved. -/
theorem exists_addLiteral_eq [Engine] {matcher : Matcher} (hl : g.literal? text = none)
    (hc : Engine.anchored (Engine.escape text) false = .ok matcher) (reserved : List String)
    (span : Span) :
  ∃ name, name ∉ reserved ∧ g.lookup? name = none ∧
    g.addLiteral text reserved span =
      .ok (⟨g.terminals.size⟩, g.withLiteral text (.ofLiteral name text matcher span))
  := by
  obtain ⟨hlookup, hreserved⟩ := g.freeName_free text reserved
  exact ⟨_, hreserved, hlookup, addLiteral_eq hl hc reserved span⟩

end Grammar

namespace Draft

/-- What declaring a literal text comes to. -/
inductive DeclaresLiteral [Engine] (reserved : List String) (d : Draft) (text : Located String) :
    Draft → Prop
  | known {t : TerminalId} (ht : d.grammar.literal? text.value = some t) :
      DeclaresLiteral reserved d text d
  /-- A text whose pattern does not compile is reported. -/
  | invalid {reason : String} (hl : d.grammar.literal? text.value = none)
      (hc : Engine.anchored (Engine.escape text.value) false = .error reason) :
      DeclaresLiteral reserved d text (d.report (.invalidPattern text.value reason) text.span)
  | added {name : String} {matcher : Matcher} (hl : d.grammar.literal? text.value = none)
      (hc : Engine.anchored (Engine.escape text.value) false = .ok matcher)
      (hname : name ∉ reserved) (hfree : d.grammar.lookup? name = none) :
      DeclaresLiteral reserved d text
        (d.update (·.withLiteral text.value (.ofLiteral name text.value matcher text.span)))

/-- A literal text has a terminal, is given one under a name that is not reserved, or is
reported. -/
theorem declaresLiteral_declareLiteral [Engine] (reserved : List String) (d : Draft)
    (text : Located String) :
  d.DeclaresLiteral reserved text (d.declareLiteral reserved text)
  := by
  rw [declareLiteral]
  cases hl : d.grammar.literal? text.value with
  | some t =>
    rw [Grammar.addLiteral, hl]
    apply DeclaresLiteral.known hl
  | none =>
    cases hc : Engine.anchored (Engine.escape text.value) false with
    | error e =>
      rw [Grammar.addLiteral, hl, hc]
      apply DeclaresLiteral.invalid hl hc
    | ok matcher =>
      obtain ⟨name, hname, hfree, hadd⟩ :=
        Grammar.exists_addLiteral_eq hl hc reserved text.span
      rw [hadd]
      apply DeclaresLiteral.added hl hc hname hfree

/-- The literal texts in the rules of a description. -/
abbrev literalsOf (desc : Description) : List (Located String) :=
  desc.productions.flatMap (·.rhs.literals)

/-- What holds of the empty draft, and stays so when a literal text or an item is declared, holds
after all declarations. -/
theorem ofDeclarations_induction [Engine] {P : Draft → Prop} (o : Options) (fs : FileSystem)
    (desc : Description) (hempty : P empty)
    (hliteral : ∀ d d', ∀ text ∈ literalsOf desc,
      d.DeclaresLiteral (desc.productions.map (·.name.value)) text d' → P d → P d')
    (hitem : ∀ d d', ∀ i ∈ desc.items, d.Declares i d' → P d → P d') :
  P (ofDeclarations o fs desc)
  := by
  rw [ofDeclarations, declareLiterals]
  refine List.foldlRecOn _ _ (List.foldlRecOn _ _ hempty ?_) ?_
  · intro d hd text htext
    apply hliteral d _ text htext (declaresLiteral_declareLiteral _ d text) hd
  · intro d hd i hi
    apply hitem d _ i hi (declares_declareItem d o fs i) hd

end Draft

/-! ### Before rules are added -/

namespace Grammar

variable {g g' : Grammar}

/-- A grammar without rules: no node has a number, and no nonterminal a code. -/
structure IsBare (g : Grammar) : Prop where
  nextRule : g.nextRule = 0
  code : ∀ n, (g.nonterminal n).code = none
  alternatives : ∀ n, (g.nonterminal n).alternatives = []

theorem IsBare.congr (h : g.IsBare) (hg : g'.core = g.core) :
  g'.IsBare
  := by
  constructor
  · rw [nextRule_of_core hg, h.nextRule]
  · intro n
    have hn : (g'.nonterminal n).core.code = (g.nonterminal n).core.code := by
      rw [nonterminal_of_core hg]
    exact hn.trans (h.code n)
  · intro n
    have hn : (g'.nonterminal n).core.alternatives = (g.nonterminal n).core.alternatives := by
      rw [nonterminal_of_core hg]
    exact hn.trans (h.alternatives n)

theorem IsBare.withNonterminal (h : g.IsBare) (name : String) (span : Span) :
  (g.withNonterminal (.bare name span)).IsBare
  := by
  refine ⟨h.nextRule, ?_, ?_⟩ <;> intro n <;> rw [nonterminal_withNonterminal] <;> split
  · rfl
  · apply h.code
  · rfl
  · apply h.alternatives

end Grammar

namespace Draft

variable {d d' : Draft}

theorem Declares.isBare [Engine] {i : Description.Item} (h : d.Declares i d')
    (hd : d.grammar.IsBare) :
  d'.grammar.IsBare
  := by
  cases h with
  | directive h => apply hd.congr h.core
  | invalid => exact hd
  | terminal ht hl h =>
    apply Grammar.IsBare.congr _ h.core
    exact ⟨hd.nextRule, hd.code, hd.alternatives⟩
  | duplicate ht hl hg h =>
    rw [← hg] at hd
    exact hd
  | nonterminal hr hl h => apply (hd.withNonterminal _ _).congr h.core
  | again hr hl h => apply hd.congr h.core
  | clash => exact hd

theorem DeclaresLiteral.isBare [Engine] {reserved : List String} {text : Located String}
    (h : d.DeclaresLiteral reserved text d') (hd : d.grammar.IsBare) :
  d'.grammar.IsBare
  := by
  cases h with
  | known => exact hd
  | invalid => exact hd
  | added => exact ⟨hd.nextRule, hd.code, hd.alternatives⟩

/-- Declarations add no rules. -/
theorem isBare_ofDeclarations [Engine] (o : Options) (fs : FileSystem) (desc : Description) :
  (ofDeclarations o fs desc).grammar.IsBare
  := by
  apply ofDeclarations_induction (P := fun d => d.grammar.IsBare)
  · exact ⟨rfl, fun _ => rfl, fun _ => rfl⟩
  · exact fun d d' text _ h hd => h.isBare hd
  · exact fun d d' i _ h hd => h.isBare hd

end Draft

/-! ### Rules -/

namespace Grammar

mutual

/-- Names without a symbol are reported where they stand. -/
theorem isRemark_undeclared (g : Grammar) : ∀ (e : Expr) (operand : Bool),
  ∀ y ∈ g.undeclared operand e, y.IsRemark e.spans
  | .ident name, operand => by
      rw [undeclared]
      split
      · simp
      · split
        · exact List.forall_mem_singleton.mpr (Problem.isRemark rfl List.mem_cons_self)
        · exact List.forall_mem_singleton.mpr (Problem.isRemark rfl List.mem_cons_self)
  | .literal text, _ => List.forall_mem_nil _
  | .choice es, _ => isRemark_undeclaredAll g es
  | .concat es, _ => isRemark_undeclaredAll g es
  | .option e, _ => isRemark_undeclared g e true
  | .zeroOrMore e, _ => isRemark_undeclared g e true
  | .oneOrMore e, _ => isRemark_undeclared g e true

theorem isRemark_undeclaredAll (g : Grammar) : ∀ (es : List Expr),
  ∀ y ∈ g.undeclaredAll es, y.IsRemark (Expr.spansAll es)
  | [] => List.forall_mem_nil _
  | e :: es => List.forall_mem_append.mpr
      ⟨fun y hy => (isRemark_undeclared g e false y hy).mono (List.subset_append_left _ _),
        fun y hy => (isRemark_undeclaredAll g es y hy).mono (List.subset_append_right _ _)⟩

end

/-- A reference that is not matched is reported where its name stands in the code. -/
theorem exists_of_mem_unmatched {g : Grammar} {r : Rule} {code : Located String} {y : Diagnostic}
    (h : y ∈ g.unmatched r code) :
  ∃ before name,
    (before, name) ∈ ActionCode.namesAfter [] (ActionCode.pieces code.value.toList) ∧
    y = (Problem.unmatchedVariable (String.ofList name)).located (code.span.within before name)
  := by
  obtain ⟨⟨before, name⟩, hmem, hy⟩ := List.mem_filterMap.mp h
  dsimp only at hy
  split at hy <;> cases hy
  exact ⟨before, name, hmem, rfl⟩

end Grammar

/-- A nonterminal with one more rule, and with a code if one is given. -/
def Nonterminal.write (n : Nonterminal) (r : Rule) (code : Option (Located String)) :
    Nonterminal :=
  { n with alternatives := n.alternatives ++ [r], code := (code.map (·.value)).or n.code }

theorem modify_modify {α : Type} (f h : α → α) (xs : Array α) (i : Nat) :
  (xs.modify i f).modify i h = xs.modify i (h ∘ f)
  := by
  apply Array.ext
  · simp
  · intro j hj hj'
    rw [Array.getElem_modify, Array.getElem_modify, Array.getElem_modify]
    split <;> rfl

/-- Adding a rule writes it to one nonterminal, and reports names without a symbol and references to
what is no symbol of the rule. -/
theorem Draft.define_eq_write (d : Draft) (n : NonterminalId) (e : Expr)
    (code : Option (Located String)) :
  let g := d.grammar
  let rule := ((g.ruleOf e).run g.nextRule).1
  d.define n e code =
    ⟨{ g with
        nonterminals := g.nonterminals.modify n.index (·.write rule code)
        nextRule := ((g.ruleOf e).run g.nextRule).2
        cached := none },
      d.diagnostics ++ (g.undeclared false e ++ code.toList.flatMap (g.unmatched rule))⟩
  := by
  intro g rule
  cases code with
  | none =>
    rw [Option.toList_none, List.flatMap_nil, List.append_nil]
    rfl
  | some c =>
    have hcode : ((g.nonterminals.modify n.index fun x => { x with code := some c.value }).modify
        n.index fun x => { x with alternatives := x.alternatives ++ [rule] }) =
        g.nonterminals.modify n.index (·.write rule (some c)) := modify_modify _ _ _ _
    rw [Option.toList_some, List.flatMap_singleton, ← List.append_assoc, ← hcode]
    rfl

/-- The nonterminals after a rule is added. -/
theorem Draft.nonterminal_define (d : Draft) {n : NonterminalId}
    (hn : d.grammar.Has (.nonterminal n)) (e : Expr) (code : Option (Located String))
    (m : NonterminalId) :
  (d.define n e code).grammar.nonterminal m =
    if m = n then
      (d.grammar.nonterminal n).write ((d.grammar.ruleOf e).run d.grammar.nextRule).1 code
    else d.grammar.nonterminal m
  := by
  obtain ⟨i⟩ := n
  obtain ⟨j⟩ := m
  rw [Grammar.Has] at hn
  simp only [define_eq_write, Grammar.nonterminal, Array.getD_eq_getD_getElem?,
    Array.getElem?_modify, NonterminalId.mk.injEq]
  by_cases hj : j = i
  · subst hj
    simp [hn]
  · simp [hj, Ne.symm hj]

/-- No symbol has another name after a rule is added. -/
theorem Draft.nameOf_define (d : Draft) {n : NonterminalId} (hn : d.grammar.Has (.nonterminal n))
    (e : Expr) (code : Option (Located String)) (x : Symbol) :
  (d.define n e code).grammar.nameOf x = d.grammar.nameOf x
  := by
  cases x with
  | terminal t =>
    rw [define_eq_write]
    rfl
  | nonterminal m =>
    rw [Grammar.nameOf, d.nonterminal_define hn]
    split
    case isTrue hm =>
      rw [hm]
      rfl
    case isFalse => rfl

/-- A production adds its rule to the nonterminal of its name, if it has one and there is one. -/
theorem Draft.defineProduction_cases (d : Draft) (p : Production) :
  (∃ e n, p.rule? = some e ∧ d.grammar.nonterminal? p.name.value = some n ∧
      d.defineProduction p = d.define n e p.code) ∨
    d.defineProduction p = d ∧
      (p.rule?.isSome → d.grammar.nonterminal? p.name.value = none)
  := by
  rw [defineProduction]
  split
  · next e n he hn => exact .inl ⟨e, n, by rw [Production.rule?, he], hn, rfl⟩
  · next hno =>
    refine .inr ⟨rfl, fun hr => ?_⟩
    rw [Option.eq_none_iff_forall_ne_some]
    intro n hn
    rw [Production.rule?] at hr
    split at hr
    · cases hr
    · next e he => exact hno e n he hn

/-- What holds of a draft, and stays so when the rule of a production is added, holds after all
productions. -/
theorem Draft.foldl_defineProduction_induction {P : Draft → Prop} {d : Draft} (hd : P d)
    (ps : List Production)
    (hdefine : ∀ d : Draft, ∀ p ∈ ps, ∀ e n, p.rule? = some e →
      d.grammar.nonterminal? p.name.value = some n → P d → P (d.define n e p.code)) :
  P (ps.foldl defineProduction d)
  := by
  apply List.foldlRecOn _ _ hd
  intro d hd p hp
  obtain ⟨e, n, he, hn, heq⟩ | ⟨heq, _⟩ := d.defineProduction_cases p
  · rw [heq]
    apply hdefine d p hp e n he hn hd
  · rwa [heq]

/-- A description has a grammar if a rule declares where to start, and then all its productions add
their rules. -/
theorem Grammar.ofDescription_cases [Engine] (o : Options) (fs : FileSystem) (desc : Description) :
  let d := Draft.ofDeclarations o fs desc
  let d' := desc.productions.foldl Draft.defineProduction d
  (d.grammar.start? = none ∧
      ofDescription o fs desc = (none, d.diagnostics ++ [Problem.startRequired.unlocated])) ∨
    d.grammar.start?.isSome ∧ ofDescription o fs desc = (some d'.grammar, d'.diagnostics)
  := by
  intro d d'
  rw [ofDescription]
  dsimp only
  cases hs : (Draft.ofDeclarations o fs desc).grammar.start? with
  | none => exact .inl ⟨rfl, rfl⟩
  | some n => exact .inr ⟨rfl, rfl⟩

end Descent
