import Descent.Proofs.Soundness

/-!
# The leaves of a derivation tree

The leaves of a tree are its nodes without children, as a walk meets them.  Those of a derivation
tree are its terminals in the order in which they were added (`ParseTree.IsDerivation.leaves_eq`).
-/

namespace Descent

/-- The kind and the text of a node of a terminal. -/
def Node.terminal? (n : Node SymbolKind) : Option (SymbolKind × String) :=
  match n.token.kind with
  | .terminal t => some (.terminal t, n.token.text)
  | _ => none

/-- The kind and the text of a node without children, unless it is that of a nonterminal. -/
def Node.leaf? (n : Node SymbolKind) : Option (SymbolKind × String) :=
  match n.children, n.token.kind with
  | _ :: _, _ => none
  | [], .nonterminal _ => none
  | [], kind => some (kind, n.token.text)

namespace ParseTree

variable {t : ParseTree SymbolKind} {input : List Char} {g : Grammar}

/-- The leaves of a tree, as a walk meets them.  A nonterminal that derived the empty word is no
leaf. -/
def leaves (t : ParseTree SymbolKind) : List (SymbolKind × String) :=
  (t.walk.filterMap fun p => t.node? p.2).filterMap Node.leaf?

/-- The terminals of a tree, as they were added. -/
def terminals (t : ParseTree SymbolKind) : List (SymbolKind × String) :=
  t.nodes.toList.filterMap Node.terminal?

/-! ### Leaves are terminals -/

/-- The nodes of a derivation tree that are leaves are those of terminals. -/
theorem IsDerivation.leaf?_eq (h : t.IsDerivation g input) {n : Node SymbolKind}
    (hn : n ∈ t.nodes.toList) :
  n.leaf? = n.terminal?
  := by
  obtain ⟨j, hj⟩ := List.mem_iff_getElem?.mp hn
  have hj : t.node? ⟨j⟩ = some n := by rw [node?, ← Array.getElem?_toList, hj]
  by_cases hr : (⟨j⟩ : NodeId) = root
  · obtain ⟨x, c, _, hx, hk, hc, _⟩ := h.start
    rw [← hr, hj] at hx
    cases hx
    rw [Node.leaf?, Node.terminal?, hk, hc]
  · obtain ⟨ks, hks, hp⟩ := h.justified ⟨j⟩ hr n hj
    unfold Grammar.Justifies at hp
    rw [Node.leaf?, Node.terminal?]
    split at hp
    · next u hk =>
      rw [hp.1, List.map_nil, List.map_eq_nil_iff] at hks
      rw [hks, hk]
    · next m hk =>
      rw [hk]
      cases n.children <;> rfl
    · cases hp
    · cases hp

/-- The leaves of a derivation tree are its terminals. -/
theorem IsDerivation.leaves_eq (h : t.IsDerivation g input) :
  t.leaves = t.terminals
  := by
  rw [leaves, filterMap_walk h.walked]
  apply List.filterMap_congr
  intro n hn
  apply h.leaf?_eq hn

/-! ### Adding terminals -/

theorem filterMap_modify {α β : Type} {f : α → α} {k : α → Option β} (h : ∀ a, k (f a) = k a) :
    ∀ (l : List α) (j : Nat), (l.modify j f).filterMap k = l.filterMap k
  | [], _ => by rw [List.modify_nil]
  | a :: l, 0 => by simp [List.filterMap_cons, h]
  | a :: l, j + 1 => by simp [List.filterMap_cons, filterMap_modify h l j]

theorem terminals_create (t : ParseTree SymbolKind) (parent : NodeId) (token : Token SymbolKind)
    (text : String) :
  (t.create parent token text).2.terminals =
    t.terminals ++ (Node.terminal? ⟨token, text, some parent, []⟩).toList
  := by
  rw [terminals, create]
  rw [Array.toList_push, List.filterMap_append, Array.toList_modify, filterMap_modify]
  · rfl
  · exact fun _ => rfl

theorem terminals_widenTo (t : ParseTree SymbolKind) (target : NodeId) (span : Span) :
  (t.widenTo target span).terminals = t.terminals
  := by
  unfold terminals widenTo
  rw [Array.toList_modify, filterMap_modify]
  exact fun _ => rfl

theorem terminals_widen (t : ParseTree SymbolKind) (target source : NodeId) :
  (t.widen target source).terminals = t.terminals
  := by
  rw [widen]
  split
  · apply terminals_widenTo
  · rfl

end ParseTree

end Descent
