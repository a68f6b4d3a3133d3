import Mathlib.Data.List.Intervals
import Descent.Proofs.Agreement
import Descent.Proofs.Declarations

/-!
# Numbers of rule nodes, references in codes

The nodes of a rule take the numbers from the counter on, each of them once
(`Grammar.fills_ruleOf`).  So while rules are added to a draft its nodes have the numbers below the
counter, and as long as nothing is wrong the codes refer to symbols of their nonterminals
(`Draft.Written`).
-/

namespace Descent

open Description (Expr Production)

/-! ### The numbers of a rule -/

/-- The numbers from `k` up to `m`, in some order. -/
def Fills (k m : Nat) (numbers : List Nat) : Prop := k ≤ m ∧ numbers.Perm (List.Ico k m)

theorem fills_singleton (k : Nat) :
  Fills k (k + 1) [k]
  := ⟨Nat.le_succ k, by rw [List.Ico.succ_singleton]⟩

theorem Fills.append {k l m : Nat} {xs ys : List Nat} (h : Fills k l xs) (h' : Fills l m ys) :
  Fills k m (xs ++ ys)
  := by
  obtain ⟨hkl, hx⟩ := h
  obtain ⟨hlm, hy⟩ := h'
  refine ⟨hkl.trans hlm, ?_⟩
  rw [← List.Ico.append_consecutive hkl hlm]
  apply hx.append hy

/-- A node that is numbered after those below it. -/
theorem Fills.cons {k m : Nat} {xs : List Nat} (h : Fills k m xs) :
  Fills k (m + 1) (m :: xs)
  := by
  obtain ⟨hle, hperm⟩ := h.append (fills_singleton m)
  exact ⟨hle, (List.perm_append_singleton m xs).symm.trans hperm⟩

/-- The numbers of rule nodes. -/
def Rule.numbers (rs : List Rule) : List Nat := rs.map (·.id.index)

namespace Grammar

variable (g : Grammar)

theorem nodes_nodeOfName (name : String) (id : RuleId) :
  Rule.numbers (g.nodeOfName name id).nodes = [id.index]
  := by
  rw [nodeOfName]
  split <;> rfl

theorem nodes_nodeOfLiteral (text : String) (id : RuleId) :
  Rule.numbers (g.nodeOfLiteral text id).nodes = [id.index]
  := by
  rw [nodeOfLiteral]
  split <;> rfl

mutual

/-- The nodes of the rule of an expression have the numbers that the counter passes. -/
theorem fills_ruleOf : ∀ (e : Expr) (k : Nat),
  Fills k ((g.ruleOf e).run k).2 (Rule.numbers ((g.ruleOf e).run k).1.nodes)
  | .ident name, k => by
      change Fills k (k + 1) (Rule.numbers (g.nodeOfName name.value ⟨k⟩).nodes)
      rw [nodes_nodeOfName]
      apply fills_singleton
  | .literal text, k => by
      change Fills k (k + 1) (Rule.numbers (g.nodeOfLiteral text.value ⟨k⟩).nodes)
      rw [nodes_nodeOfLiteral]
      apply fills_singleton
  | .choice es, k | .concat es, k => (fills_rulesOf es k).cons
  | .option e, k | .zeroOrMore e, k | .oneOrMore e, k => (fills_ruleOf e k).cons

theorem fills_rulesOf : ∀ (es : List Expr) (k : Nat),
  Fills k ((g.rulesOf es).run k).2 (Rule.numbers (Rule.nodesAll ((g.rulesOf es).run k).1))
  | [], k => ⟨Nat.le_refl k, .of_eq List.Ico.self_empty.symm⟩
  | e :: es, k => by
      have h := (fills_ruleOf e k).append (fills_rulesOf es _)
      rw [Rule.numbers, Rule.numbers, ← List.map_append] at h
      exact h

end

/-! ### The numbers of a grammar -/

/-- All nodes of the rules of a grammar. -/
def nodes (g : Grammar) : List Rule :=
  g.nonterminals.toList.flatMap fun n => Rule.nodesAll n.alternatives

variable {g}

/-- The nodes of a grammar are those of its rules. -/
theorem mem_nodes {q : Rule} :
  q ∈ g.nodes ↔ ∃ n, ∃ r ∈ g.productions n, q ∈ r.nodes
  := by
  simp only [nodes, List.mem_flatMap, Rule.mem_nodesAll]
  constructor
  · rintro ⟨x, hx, hq⟩
    obtain ⟨i, hi, rfl⟩ := List.getElem_of_mem hx
    refine ⟨⟨i⟩, ?_⟩
    rw [productions, nonterminal, Array.getD_eq_getD_getElem?, Array.getElem?_eq_getElem hi]
    exact hq
  · rintro ⟨n, r, hr, hq⟩
    have hn := lt_size_of_mem_productions hr
    refine ⟨g.nonterminal n, ?_, r, hr, hq⟩
    rw [nonterminal, Array.getD_eq_getD_getElem?, Array.getElem?_eq_getElem hn]
    apply Array.getElem_mem_toList

end Grammar

theorem Rule.nodesAll_append (rs qs : List Rule) :
  nodesAll (rs ++ qs) = nodesAll rs ++ nodesAll qs
  := by
  induction rs with
  | nil => rfl
  | cons r rs ih => rw [List.cons_append, nodesAll, ih, nodesAll, List.append_assoc]

theorem Rule.symbolsAll_append (rs qs : List Rule) :
  symbolsAll (rs ++ qs) = symbolsAll rs ++ symbolsAll qs
  := by
  induction rs with
  | nil => rfl
  | cons r rs ih => rw [List.cons_append, symbolsAll, ih, symbolsAll, List.append_assoc]

/-- What one element of a list gives more than before, the list gives more. -/
theorem flatMap_modify {α β : Type} {f : α → α} {h : α → List β} {ys : List β}
    (hf : ∀ a, h (f a) = h a ++ ys) :
    ∀ {xs : List α} {i : Nat}, i < xs.length →
  ((xs.modify i f).flatMap h).Perm (xs.flatMap h ++ ys)
  | x :: xs, 0, _ => by
      rw [List.modify_zero_cons, List.flatMap_cons, hf, List.flatMap_cons, List.append_assoc,
        List.append_assoc]
      apply List.Perm.append_left _ List.perm_append_comm
  | x :: xs, i + 1, hi => by
      rw [List.modify_succ_cons, List.flatMap_cons, List.flatMap_cons, List.append_assoc]
      apply List.Perm.append_left _ (flatMap_modify hf (Nat.lt_of_succ_lt_succ hi))

/-! ### References in codes -/

/-- The names that are looked up in a code are those of its references. -/
theorem ActionCode.map_name_occurrences (ps : List Piece) : ∀ (offset : Nat) (before : List Char),
  (occurrences offset ps).map (·.reference.name) = (namesAfter before ps).map Prod.snd
  := by
  induction ps with
  | nil => exact fun _ _ => rfl
  | cons p ps ih =>
    intro offset before
    cases p with
    | char c => apply ih
    | reference r => rw [occurrences, namesAfter, List.map_cons, List.map_cons, ih]

namespace Grammar

variable {g g' : Grammar}

/-- A code whose references are all matched refers to symbols of its rule. -/
theorem mem_of_unmatched_eq_nil {r : Rule} {code : Located String} (h : g.unmatched r code = []) :
  ∀ o ∈ ActionCode.references code.value, String.ofList o.reference.name ∈ r.symbols.map g.nameOf
  := by
  intro o ho
  have hname := List.mem_map_of_mem (f := (·.reference.name)) ho
  rw [ActionCode.references, ActionCode.map_name_occurrences _ 0 []] at hname
  obtain ⟨⟨before, name⟩, hmem, hname⟩ := List.mem_map.mp hname
  rw [unmatched, List.filterMap_eq_nil_iff] at h
  rw [← hname]
  by_contra hno
  have hnone := h _ hmem
  dsimp only at hnone
  rw [if_neg hno] at hnone
  cases hnone

/-- The code of a nonterminal refers to symbols of its rules. -/
def CodeMatches (g : Grammar) (n : NonterminalId) : Prop :=
  ∀ code ∈ (g.nonterminal n).code, ∀ o ∈ ActionCode.references code,
    String.ofList o.reference.name ∈ (g.nonterminal n).symbols.map g.nameOf

end Grammar

namespace Draft

variable {d d' : Draft}

/-! ### While rules are added -/

/-- What holds of a draft while rules are added: names have symbols, the nodes of the rules have the
numbers below the counter, and as long as nothing is wrong codes refer to symbols. -/
structure Written (d : Draft) : Prop where
  names : ∀ name x, d.grammar.lookup? name = some x → d.grammar.Has x
  numbers : Fills 0 d.grammar.nextRule (Rule.numbers d.grammar.nodes)
  codes : d.diagnostics = [] → ∀ n, d.grammar.CodeMatches n

theorem written_of_isBare (hd : d.grammar.IsBare)
    (hnames : ∀ name x, d.grammar.lookup? name = some x → d.grammar.Has x) :
  d.Written
  := by
  refine ⟨hnames, ?_, ?_⟩
  · have hnodes : d.grammar.nodes = [] := by
      rw [List.eq_nil_iff_forall_not_mem]
      intro q hq
      obtain ⟨n, r, hr, _⟩ := Grammar.mem_nodes.mp hq
      rw [Grammar.productions, hd.alternatives n] at hr
      cases hr
    rw [hnodes, hd.nextRule]
    exact ⟨Nat.le_refl 0, .of_eq List.Ico.self_empty.symm⟩
  · intro _ n code hcode
    rw [hd.code n] at hcode
    cases hcode

theorem Written.define (h : d.Written) {name : String} {n : NonterminalId}
    (hn : d.grammar.nonterminal? name = some n) (e : Expr) (code : Option (Located String)) :
  (d.define n e code).Written
  := by
  have hhas := h.names name _ (Grammar.lookup?_of_nonterminal? hn)
  constructor
  case names =>
    intro k x hx
    rw [define_eq_write] at hx ⊢
    have hx := h.names k x hx
    cases x <;> simpa [Grammar.Has] using hx
  case numbers =>
    obtain ⟨hle, hperm⟩ := h.numbers.append (d.grammar.fills_ruleOf e d.grammar.nextRule)
    rw [define_eq_write]
    refine ⟨hle, List.Perm.trans ?_ hperm⟩
    rw [Rule.numbers, Rule.numbers, Rule.numbers, ← List.map_append]
    apply List.Perm.map
    rw [Grammar.nodes, Grammar.nodes, Array.toList_modify]
    apply flatMap_modify _ hhas
    intro x
    rw [Nonterminal.write, Rule.nodesAll_append, Rule.nodesAll, Rule.nodesAll, List.append_nil]
  case codes =>
    intro hnil m c hc o ho
    have hnames : (d.define n e code).grammar.nameOf = d.grammar.nameOf :=
      funext (d.nameOf_define hhas e code)
    rw [hnames, Nonterminal.symbols]
    rw [d.nonterminal_define hhas] at hc ⊢
    rw [define_eq_write, List.append_eq_nil_iff, List.append_eq_nil_iff] at hnil
    obtain ⟨hnil, -, hunmatched⟩ := hnil
    split
    case isFalse hm =>
      rw [if_neg hm] at hc
      apply h.codes hnil m c hc o ho
    case isTrue hm =>
      rw [if_pos hm] at hc
      rw [Nonterminal.write, Rule.symbolsAll_append, List.map_append, List.mem_append]
      cases code with
      | none => exact .inl (h.codes hnil n c hc o ho)
      | some located =>
        cases hc
        rw [Option.toList_some, List.flatMap_singleton] at hunmatched
        right
        rw [Rule.symbolsAll_singleton]
        apply Grammar.mem_of_unmatched_eq_nil hunmatched o ho

/-- All rules of a description are written. -/
theorem written_foldl_defineProduction (hd : d.Written) (ps : List Production) :
  (ps.foldl defineProduction d).Written
  := by
  apply foldl_defineProduction_induction hd
  intro d p _ e n _ hn hd
  apply hd.define hn e p.code

end Draft

end Descent
