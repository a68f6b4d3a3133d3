import Mathlib.Data.List.Flatten
import Descent.Proofs.Numbering
import Descent.Proofs.Symbols

/-!
# Grammars that are put together from nodes

Nodes of rules are made one after the other, of loose ones, and get the next id.  Operations put
loose nodes into rules of a grammar (`Grammar.Assembles`).  As no node is used twice, no two nodes
of a grammar have the same id (`Grammar.Assembles.unshared`), so that a node is found by its id
(`Grammar.exists_findRule?_eq`).
-/

namespace Descent

namespace Rule

variable {id : RuleId} {q r : Rule} {qs rs : List Rule}

theorem nodes_eq (r : Rule) :
  r.nodes = r :: nodesAll r.children
  := by
  rw [nodes.eq_def]
  cases r <;> simp [children, nodesAll]

/-- The ids of the nodes of rules. -/
def ids (rs : List Rule) : List RuleId := (nodesAll rs).map Rule.id

theorem ids_append (rs qs : List Rule) :
  ids (rs ++ qs) = ids rs ++ ids qs
  := by rw [ids, nodesAll_append, List.map_append, ids, ids]

theorem ids_perm (h : rs.Perm qs) :
  (ids rs).Perm (ids qs)
  := by
  have hflat : ∀ rs : List Rule, nodesAll rs = rs.flatMap nodes := by
    intro rs
    induction rs with
    | nil => rfl
    | cons r rs ih => rw [nodesAll, ih, List.flatMap_cons]
  rw [ids, ids, hflat, hflat]
  exact (h.flatMap_right nodes).map Rule.id

/-- A node and those below it, and those of further rules. -/
theorem ids_cons (r : Rule) (rs : List Rule) :
  ids (r :: rs) = r.id :: ids (r.children ++ rs)
  := by rw [ids, nodesAll, nodes_eq, List.cons_append, List.map_cons, ← nodesAll_append, ids]

mutual

/-- A node is looked for among the nodes in order. -/
theorem find?_eq_find?_nodes (id : RuleId) : ∀ r : Rule,
  r.find? id = r.nodes.find? fun q => q.id = id
  | terminal .. | nonterminal .. | unresolved .. => by
      rw [find?, nodes, List.find?_cons]
      split <;> simp_all
  | concat _ rs | choice _ rs => by
      rw [find?, nodes, List.find?_cons, findAll?_eq_find?_nodesAll id rs]
      split <;> simp_all
  | option _ r | zeroOrMore _ r | oneOrMore _ r => by
      rw [find?, nodes, List.find?_cons, find?_eq_find?_nodes id r]
      split <;> simp_all

theorem findAll?_eq_find?_nodesAll (id : RuleId) : ∀ rs : List Rule,
  findAll? id rs = (nodesAll rs).find? fun q => q.id = id
  | [] => rfl
  | r :: rs => by
      rw [findAll?, nodesAll, List.find?_append, find?_eq_find?_nodes id r,
        findAll?_eq_find?_nodesAll id rs]

end

end Rule

namespace Grammar

variable {g : Grammar} {loose loose' : List Rule}

/-- All alternatives of the nonterminals of a grammar. -/
def rules (g : Grammar) : List Rule := g.nonterminals.toList.flatMap (·.alternatives)

theorem nodesAll_rules (g : Grammar) :
  Rule.nodesAll g.rules = g.nodes
  := by
  rw [rules, nodes]
  induction g.nonterminals.toList with
  | nil => rfl
  | cons n ns ih => rw [List.flatMap_cons, List.flatMap_cons, Rule.nodesAll_append, ih]

/-- A grammar is put together, with loose rules that are not used in it so far.  A node that is made
has loose rules below it; other operations leave nodes where they are, take loose ones or leave
nodes out.  No node is used twice. -/
inductive Assembles [Engine] : Grammar → List Rule → Prop
  | empty : Assembles .empty []
  | make {g : Grammar} {loose : List Rule} (h : Assembles g loose) (node : RuleId → Rule)
      (loose' : List Rule) (hid : (g.makeRule node).1.id = ⟨g.nextRule⟩)
      (hchildren :
        (Rule.ids ((g.makeRule node).1.children ++ loose')).Subperm (Rule.ids loose)) :
      Assembles (g.makeRule node).2 ((g.makeRule node).1 :: loose')
  | perform {g : Grammar} {loose : List Rule} (h : Assembles g loose) (op : Operation)
      (loose' : List Rule) (hop : ∀ node, op ≠ .makeRule node)
      (hrules : (Rule.ids ((g.perform op).rules ++ loose')).Subperm (Rule.ids (g.rules ++ loose))) :
      Assembles (g.perform op) loose'

/-- Only nodes that are made are numbered. -/
theorem nextRule_perform [Engine] {op : Operation} (hop : ∀ node, op ≠ .makeRule node) :
  (g.perform op).nextRule = g.nextRule
  := by
  by_cases hadd : op.isAddition
  · have h := addition_perform g hadd
    generalize g.perform op = g' at h
    cases h <;> rfl
  · cases op with
    | makeRule node => exact absurd rfl (hop node)
    | addTerminal | addNonterminal | addLiteral => exact absurd rfl hadd
    | addSkip t =>
      rw [perform, addSkip]
      split <;> rfl
    | _ => rfl

theorem nodup_of_subperm {α : Type} {xs ys : List α} (h : ys.Nodup) (hsub : xs.Subperm ys) :
  xs.Nodup
  := by
  obtain ⟨zs, hperm, hzs⟩ := hsub
  exact hperm.nodup_iff.mp (h.sublist hzs)

/-- Nodes have different ids, which are below the counter, and FIRST sets that are kept are right. -/
structure Unshared (g : Grammar) (loose : List Rule) : Prop where
  nodup : (Rule.ids (g.rules ++ loose)).Nodup
  lt_nextRule : ∀ id ∈ Rule.ids (g.rules ++ loose), id.index < g.nextRule
  fresh : g.Fresh

theorem Assembles.unshared [Engine] (h : g.Assembles loose) :
  g.Unshared loose
  := by
  induction h with
  | empty => exact ⟨List.nodup_nil, List.forall_mem_nil _, fresh_of_cached_eq_none rfl⟩
  | @make g loose _ node loose' hid hchildren ih =>
    have hsub : (Rule.ids (g.rules ++ ((g.makeRule node).1.children ++ loose'))).Subperm
        (Rule.ids (g.rules ++ loose)) := by
      rw [Rule.ids_append, Rule.ids_append g.rules loose]
      exact (List.subperm_append_left _).mpr hchildren
    have hperm : (Rule.ids ((g.makeRule node).2.rules ++ (g.makeRule node).1 :: loose')).Perm
        (⟨g.nextRule⟩ :: Rule.ids (g.rules ++ ((g.makeRule node).1.children ++ loose'))) := by
      rw [Rule.ids_append, Rule.ids_cons, Rule.ids_append g.rules, hid]
      exact List.perm_middle
    have hlt : ∀ id ∈ Rule.ids (g.rules ++ ((g.makeRule node).1.children ++ loose')),
        id.index < g.nextRule := fun id hmem => ih.lt_nextRule id (hsub.subset hmem)
    constructor
    case nodup =>
      rw [hperm.nodup_iff, List.nodup_cons]
      exact ⟨fun hmem => Nat.lt_irrefl _ (hlt _ hmem), nodup_of_subperm ih.nodup hsub⟩
    case lt_nextRule =>
      intro id hmem
      obtain rfl | hmem := List.mem_cons.mp (hperm.subset hmem)
      · exact Nat.lt_succ_self _
      · exact Nat.lt_succ_of_lt (hlt id hmem)
    case fresh => exact ih.fresh.perform (.makeRule node)
  | perform _ op _ hop hrules ih =>
    constructor
    case nodup => exact nodup_of_subperm ih.nodup hrules
    case lt_nextRule =>
      rw [nextRule_perform hop]
      exact fun id hmem => ih.lt_nextRule id (hrules.subset hmem)
    case fresh => exact ih.fresh.perform op

/-! ### Steps -/

/-- A rule that was loose becomes an alternative. -/
theorem Assembles.addAlternative [Engine] {r : Rule} (h : g.Assembles (r :: loose))
    (n : NonterminalId) :
  (g.addAlternative n r).Assembles loose
  := by
  apply h.perform (.addAlternative n r) loose nofun
  have hrules : (g.addAlternative n r).rules = (g.nonterminals.toList.modify n.index fun x =>
      { x with alternatives := x.alternatives ++ [r] }).flatMap (·.alternatives) := by
    rw [rules, Grammar.addAlternative, updateNonterminal, Array.toList_modify]
  rw [Rule.ids_append, Rule.ids_append g.rules, ← List.singleton_append, Rule.ids_append [r],
    ← List.append_assoc, ← Rule.ids_append g.rules]
  apply (List.subperm_append_right _).mpr
  rw [Grammar.perform, hrules]
  by_cases hn : n.index < g.nonterminals.toList.length
  · exact (Rule.ids_perm (flatMap_modify (fun _ => rfl) hn)).subperm
  · rw [List.modify_eq_self (Nat.le_of_not_lt hn), Rule.ids_append]
    exact (List.sublist_append_left _ _).subperm

/-! ### Finding nodes -/

/-- A node is found by its id if no other node has it. -/
theorem exists_findRule?_eq (h : (g.nodes.map Rule.id).Nodup) {q : Rule} (hq : q ∈ g.nodes) :
  ∃ n, g.findRule? q.id = some (n, q)
  := by
  obtain ⟨n, r, hr, hnode⟩ := mem_nodes.mp hq
  have hn := mem_nonterminalIds.mpr (lt_size_of_mem_productions hr)
  have hsome : (g.findRule? q.id).isSome := by
    rw [findRule?, List.isSome_findSome?, List.any_eq_true]
    refine ⟨n, hn, ?_⟩
    rw [Option.isSome_map, Rule.findAll?_eq_find?_nodesAll, List.find?_isSome]
    exact ⟨q, Rule.mem_nodesAll.mpr ⟨r, hr, hnode⟩, by simp⟩
  obtain ⟨⟨m, p⟩, hfound⟩ := Option.isSome_iff_exists.mp hsome
  obtain ⟨m', hm', hp⟩ := List.exists_of_findSome?_eq_some hfound
  rw [Rule.findAll?_eq_find?_nodesAll] at hp
  obtain ⟨p', hp', heq⟩ := Option.map_eq_some_iff.mp hp
  obtain ⟨rfl, rfl⟩ := Prod.mk.inj heq
  obtain ⟨r', hr', hnode'⟩ := Rule.mem_nodesAll.mp (List.mem_of_find?_eq_some hp')
  have hid : p'.id = q.id := by simpa using List.find?_some hp'
  have hmem : p' ∈ g.nodes := mem_nodes.mpr ⟨_, r', hr', hnode'⟩
  rw [List.inj_on_of_nodup_map h hmem hq hid] at hfound
  exact ⟨_, hfound⟩

/-- A node is the only one with its id if no id is used twice. -/
theorem filter_nodes_eq (h : (g.nodes.map Rule.id).Nodup) {q : Rule} (hq : q ∈ g.nodes) :
  (g.nodes.filter fun p => p.id = q.id) = [q]
  := by
  obtain ⟨before, after, hsplit⟩ := List.append_of_mem hq
  rw [hsplit, List.map_append, List.map_cons, List.nodup_middle, List.nodup_cons,
    ← List.map_append] at h
  have hne : ∀ p ∈ before ++ after, ¬ p.id = q.id := fun p hp =>
    ne_of_mem_of_not_mem (List.mem_map_of_mem hp) h.1
  rw [hsplit, List.filter_append, List.filter_cons_of_pos (by simp)]
  rw [List.filter_eq_nil_iff.mpr fun p hp => by simpa using hne p (List.mem_append_left _ hp)]
  rw [List.filter_eq_nil_iff.mpr fun p hp => by simpa using hne p (List.mem_append_right _ hp)]
  rfl

end Grammar

end Descent
