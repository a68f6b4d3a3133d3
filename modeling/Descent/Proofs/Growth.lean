import Mathlib.Tactic.Common
import Descent.ParseTree

/-!
# How parse trees grow

The nodes of a stretch of a tree are those of a forest in preorder (`ParseTree.Forest`): each node
is followed by those below it.  What is added below one node of a tree is such a forest at the end,
and leaves all other nodes as they are (`ParseTree.Growth`).

* Adding a token, and adding a node and letting it grow, are growths, also if the node above is
  widened (`ParseTree.growth_addToken`, `ParseTree.growth_of_nested`, `ParseTree.Growth.widenTo`),
  and one growth after the other is one (`ParseTree.Growth.trans`).
* A walk meets the nodes of a forest in the order in which they were created
  (`ParseTree.Forest.walkFrom`, `ParseTree.Growth.walk`).
-/

namespace Descent

namespace ParseTree

variable {κ : Type} {t t' t'' : ParseTree κ} {P : Node κ → List κ → Prop}

/-! ### Forests -/

/-- The nodes with indices from `a` up to `b` are those of a forest in preorder: its roots and their
kinds are given, and `P` holds of each node and the kinds of its children. -/
inductive Forest (t : ParseTree κ) (P : Node κ → List κ → Prop) :
    List NodeId → List κ → Nat → Nat → Prop
  | nil (a : Nat) : Forest t P [] [] a a
  | cons {a b c : Nat} {n : Node κ} {cs : List NodeId} {ks ls : List κ}
      (hn : t.nodes[a]? = some n) (hp : P n ks) (hb : Forest t P n.children ks (a + 1) b)
      (hc : Forest t P cs ls b c) : Forest t P (⟨a⟩ :: cs) (n.token.kind :: ls) a c

variable {cs ds : List NodeId} {ks ls : List κ} {a b c : Nat}

theorem Forest.le (h : t.Forest P cs ks a b) :
  a ≤ b
  := by
  induction h with
  | nil a => apply Nat.le_refl
  | cons _ _ _ _ hb hc => omega

/-- A forest stays one as long as its nodes stay as they are. -/
theorem Forest.congr (h : t.Forest P cs ks a b)
    (ht : ∀ j, a ≤ j → j < b → t'.nodes[j]? = t.nodes[j]?) :
  t'.Forest P cs ks a b
  := by
  induction h with
  | nil a => exact .nil a
  | @cons a b c n cs ks ls hn hp hb hc ihb ihc =>
    have hab := hb.le
    have hbc := hc.le
    apply Forest.cons _ hp
    · apply ihb
      intro j hj hjb
      apply ht <;> omega
    · apply ihc
      intro j hj hjc
      apply ht <;> omega
    · rw [ht a (by omega) (by omega), hn]

/-- Two forests side by side. -/
theorem Forest.append (h : t.Forest P cs ks a b) (h' : t.Forest P ds ls b c) :
  t.Forest P (cs ++ ds) (ks ++ ls) a c
  := by
  induction h with
  | nil a => apply h'
  | cons hn hp hb _ _ ih => exact .cons hn hp hb (ih h')

/-- The kinds of the roots of a forest. -/
theorem Forest.kinds (h : t.Forest P cs ks a b) :
  cs.map (fun id => (t.node? id).map (·.token.kind)) = ks.map some
  := by
  induction h with
  | nil a => rfl
  | cons hn _ _ _ _ ih => rw [List.map_cons, List.map_cons, ih, node?, hn, Option.map_some]

/-- Below each node of a forest is a forest. -/
theorem Forest.exists_node (h : t.Forest P cs ks a b) {j : Nat} (hja : a ≤ j) (hjb : j < b) :
  ∃ n ls e, t.nodes[j]? = some n ∧ P n ls ∧ t.Forest P n.children ls (j + 1) e
  := by
  induction h with
  | nil a => omega
  | @cons a b c n cs ks ls hn hp hb _ ihb ihc =>
    obtain hj | hj | hj := (by omega : j = a ∨ (a + 1 ≤ j ∧ j < b) ∨ b ≤ j)
    · rw [hj]
      exact ⟨n, ks, b, hn, hp, hb⟩
    · apply ihb hj.1 hj.2
    · apply ihc hj (by assumption)

/-- A walk meets the nodes of a forest in order. -/
theorem Forest.walkFrom (h : t.Forest P cs ks a b) : ∀ (height depth : Nat), b ≤ a + height →
  (cs.flatMap (t.walkFrom height depth)).map Prod.snd = (List.range' a (b - a)).map NodeId.mk
  := by
  induction h with
  | nil a =>
    intro height depth _
    simp
  | @cons a b c n cs ks ls hn _ hb hc ihb ihc =>
    intro height depth hle
    have hab := hb.le
    have hbc := hc.le
    obtain ⟨height, rfl⟩ : ∃ k, height = k + 1 := ⟨height - 1, by omega⟩
    have hch : t.children ⟨a⟩ = n.children := by rw [children, node?, hn]
    have hr : List.range' a (c - a) =
        a :: (List.range' (a + 1) (b - (a + 1)) ++ List.range' b (c - b)) := by
      have hca : c - a = (b - (a + 1)) + (c - b) + 1 := by omega
      rw [hca, List.range'_succ, ← List.range'_append_1]
      congr 3
      omega
    rw [hr, List.flatMap_cons, ParseTree.walkFrom, hch, List.map_append, List.map_cons,
      ihb height (depth + 1) (by omega), ihc (height + 1) depth (by omega)]
    simp

/-! ### Growth -/

/-- A tree in which a forest has grown at the end, with its roots below a node that the tree had
before; of the other nodes that it had none has changed. -/
structure Growth (P : Node κ → List κ → Prop) (t : ParseTree κ) (node : NodeId)
    (cs : List NodeId) (ks : List κ) (t' : ParseTree κ) : Prop where
  old : ∀ j < t.size, j ≠ node.index → t'.nodes[j]? = t.nodes[j]?
  node : ∃ n n', t.node? node = some n ∧ t'.node? node = some n' ∧
    n'.children = n.children ++ cs ∧ n'.token.kind = n.token.kind
  forest : t'.Forest P cs ks t.size t'.size

variable {node : NodeId}

theorem lt_size_of_node? {n : Node κ} (h : t.node? node = some n) :
  node.index < t.size
  := by
  obtain ⟨h, _⟩ := Array.getElem?_eq_some_iff.mp h
  apply h

theorem exists_node?_of_lt_size (h : node.index < t.size) :
  ∃ n, t.node? node = some n
  := ⟨_, Array.getElem?_eq_getElem h⟩

theorem Growth.refl (P : Node κ → List κ → Prop) (h : node.index < t.size) :
  Growth P t node [] [] t
  := by
  obtain ⟨n, hn⟩ := exists_node?_of_lt_size h
  exact ⟨fun _ _ _ => rfl, ⟨n, n, hn, hn, by simp, rfl⟩, .nil _⟩

theorem Growth.le (h : Growth P t node cs ks t') :
  t.size ≤ t'.size
  := h.forest.le

theorem Growth.lt_size (h : Growth P t node cs ks t') :
  node.index < t.size
  := by
  obtain ⟨n, _, hn, _⟩ := h.node
  apply lt_size_of_node? hn

theorem Growth.children (h : Growth P t node cs ks t') :
  t'.children node = t.children node ++ cs
  := by
  obtain ⟨n, n', hn, hn', hcs, _⟩ := h.node
  unfold ParseTree.children
  rw [hn, hn']
  apply hcs

/-- A growth after another one. -/
theorem Growth.trans (h : Growth P t node cs ks t') (h' : Growth P t' node ds ls t'') :
  Growth P t node (cs ++ ds) (ks ++ ls) t''
  := by
  have hlt := h.lt_size
  have hle := h.le
  constructor
  · intro j hj hne
    rw [h'.old j (by omega) hne, h.old j hj hne]
  · obtain ⟨n, n', hn, hn', hcs, hk⟩ := h.node
    obtain ⟨m, m', hm, hm', hds, hl⟩ := h'.node
    rw [hn'] at hm
    cases hm
    exact ⟨n, m', hn, hm', by rw [hds, hcs, List.append_assoc], hl.trans hk⟩
  · apply Forest.append _ h'.forest
    apply h.forest.congr
    intro j hj hj'
    apply h'.old j hj' (by omega)

/-! ### Adding nodes -/

theorem size_create (t : ParseTree κ) (parent : NodeId) (token : Token κ) (text : String) :
  (t.create parent token text).2.size = t.size + 1
  := by simp [create, size]

/-- A new node comes last; of the others only the one above it changes. -/
theorem getElem?_create (t : ParseTree κ) (parent : NodeId) (token : Token κ) (text : String)
    (j : Nat) :
  (t.create parent token text).2.nodes[j]? =
    if j = t.size then some ⟨token, text, some parent, []⟩
    else if j = parent.index then
      (t.nodes[j]?).map fun n => { n with children := n.children ++ [⟨t.size⟩] }
    else t.nodes[j]?
  := by
  simp only [create, Array.getElem?_push, Array.size_modify, Array.getElem?_modify]
  by_cases hj : j = t.size
  · rw [if_pos hj]
    apply if_pos hj
  · rw [if_neg hj]
    apply (if_neg hj).trans
    simp only [eq_comm]
    rfl

/-- A new node has no children. -/
theorem node?_create (t : ParseTree κ) (parent : NodeId) (token : Token κ) (text : String) :
  (t.create parent token text).2.node? ⟨t.size⟩ = some ⟨token, text, some parent, []⟩
  := by rw [node?, getElem?_create, if_pos rfl]

/-- A new node becomes the last child of the one above it. -/
theorem node?_create_parent {parent : NodeId} {n : Node κ} (h : t.node? parent = some n)
    (token : Token κ) (text : String) :
  (t.create parent token text).2.node? parent =
    some { n with children := n.children ++ [⟨t.size⟩] }
  := by
  have hlt : parent.index < t.size := lt_size_of_node? h
  rw [node?] at h
  rw [node?, getElem?_create, if_neg (Nat.ne_of_lt hlt), if_pos rfl, h]
  rfl

@[simp]
theorem size_widenTo (t : ParseTree κ) (target : NodeId) (span : Span) :
  (t.widenTo target span).size = t.size
  := by simp [widenTo, size]

/-- Widening changes the span of a node only. -/
theorem getElem?_widenTo (t : ParseTree κ) (target : NodeId) (span : Span) (j : Nat) :
  (t.widenTo target span).nodes[j]? =
    if j = target.index then
      (t.nodes[j]?).map fun n =>
        { n with token := { n.token with span := n.token.span.widen span } }
    else t.nodes[j]?
  := by simp only [widenTo, Array.getElem?_modify, eq_comm]

/-- A node that is added is a growth by a leaf. -/
theorem growth_create {parent : NodeId} {token : Token κ} {text : String}
    (h : parent.index < t.size) (hp : P ⟨token, text, some parent, []⟩ []) :
  Growth P t parent [⟨t.size⟩] [token.kind] (t.create parent token text).2
  := by
  have hc := getElem?_create t parent token text
  constructor
  · intro j hj hne
    rw [hc, if_neg (Nat.ne_of_lt hj), if_neg hne]
  · obtain ⟨n, hn⟩ := exists_node?_of_lt_size h
    use n
    rw [node?] at hn
    rw [node?, node?, hc, if_neg (Nat.ne_of_lt h), if_pos rfl, hn]
    exact ⟨_, rfl, rfl, rfl, rfl⟩
  · rw [size_create]
    have hn := hc t.size
    rw [if_pos rfl] at hn
    apply Forest.cons hn hp (.nil _) (.nil _)

/-- A node that is added and grows is a growth by a tree. -/
theorem growth_of_nested {parent : NodeId} {token : Token κ} {text : String}
    (h : parent.index < t.size)
    (hg : Growth P (t.create parent token text).2 ⟨t.size⟩ cs ks t')
    (hp : ∀ n : Node κ, n.token.kind = token.kind → n.children = cs → P n ks) :
  Growth P t parent [⟨t.size⟩] [token.kind] t'
  := by
  have hc := getElem?_create t parent token text
  obtain ⟨m, m', hm, hm', hcs, hk⟩ := hg.node
  rw [node?, hc, if_pos rfl, Option.some_inj] at hm
  subst hm
  have hcs : m'.children = cs := hcs
  have hsize := size_create t parent token text
  have hle := hg.le
  -- Nodes from before, the one above the new one included, are left alone by what grows in it.
  have hold : ∀ j, j < t.size → t'.nodes[j]? = (t.create parent token text).2.nodes[j]? := by
    intro j hj
    apply hg.old j (by omega)
    apply Nat.ne_of_lt hj
  constructor
  · intro j hj hne
    rw [hold j hj, hc, if_neg (Nat.ne_of_lt hj), if_neg hne]
  · obtain ⟨n, hn⟩ := exists_node?_of_lt_size h
    use n
    rw [node?] at hn
    rw [node?, node?, hold _ h, hc, if_neg (Nat.ne_of_lt h), if_pos rfl, hn]
    exact ⟨_, rfl, rfl, rfl, rfl⟩
  · have hforest := hg.forest
    rw [← hcs, hsize] at hforest
    have h' := Forest.cons hm' (hp m' hk hcs) hforest (.nil _)
    rwa [hk] at h'

/-- Widening the node in which a growth took place keeps it one. -/
theorem Growth.widenTo (h : Growth P t node cs ks t') (span : Span) :
  Growth P t node cs ks (t'.widenTo node span)
  := by
  have hlt := h.lt_size
  constructor
  · intro j hj hne
    rw [getElem?_widenTo, if_neg hne, h.old j hj hne]
  · obtain ⟨n, n', hn, hn', hcs, hk⟩ := h.node
    use n
    rw [node?] at hn'
    rw [node?, node?, getElem?_widenTo, if_pos rfl, hn']
    exact ⟨_, hn, rfl, hcs, hk⟩
  · rw [size_widenTo]
    apply h.forest.congr
    intro j hj _
    rw [getElem?_widenTo, if_neg (by omega)]

/-- Widening a node. -/
theorem node?_widenTo {target : NodeId} {n : Node κ} (h : t.node? target = some n) (span : Span) :
  (t.widenTo target span).node? target =
    some { n with token := { n.token with span := n.token.span.widen span } }
  := by
  rw [node?] at h
  rw [node?, getElem?_widenTo, if_pos rfl, h]
  rfl

theorem node?_widenTo_of_ne {target other : NodeId} (h : other.index ≠ target.index) (span : Span) :
  (t.widenTo target span).node? other = t.node? other
  := by
  rw [node?, getElem?_widenTo, if_neg h]
  rfl

theorem size_addToken (name : κ → String) (t : ParseTree κ) (parent : NodeId) (token : Token κ) :
  (t.addToken name parent token).2.size = t.size + 1
  := (size_widenTo _ parent token.span).trans (size_create t parent token _)

/-- The node of a token that is added. -/
theorem node?_addToken (name : κ → String) {parent : NodeId} (h : parent.index < t.size)
    (token : Token κ) :
  (t.addToken name parent token).2.node? ⟨t.size⟩ =
    some ⟨token, token.label name, some parent, []⟩
  := (node?_widenTo_of_ne (Nat.ne_of_gt h) _).trans (node?_create t parent token _)

/-- A token that is added widens the node above it. -/
theorem node?_addToken_parent (name : κ → String) {parent : NodeId} {n : Node κ}
    (h : t.node? parent = some n) (token : Token κ) :
  (t.addToken name parent token).2.node? parent =
    some { n with
      token := { n.token with span := n.token.span.widen token.span }
      children := n.children ++ [⟨t.size⟩] }
  := node?_widenTo (node?_create_parent h token _) token.span

/-- A token that is added is a growth by a leaf. -/
theorem growth_addToken (name : κ → String) {parent : NodeId} {token : Token κ}
    (h : parent.index < t.size)
    (hp : P ⟨token, token.label name, some parent, []⟩ []) :
  Growth P t parent [⟨t.size⟩] [token.kind] (t.addToken name parent token).2
  := (growth_create h hp).widenTo token.span

theorem widen_eq {target source : NodeId} {n : Node κ} (h : t.node? source = some n) :
  t.widen target source = t.widenTo target n.token.span
  := by rw [widen, h]

/-- A node that is added, grows, and then is covered by the node above it, is a growth by a tree. -/
theorem growth_of_enclosed {parent : NodeId} {token : Token κ} {text : String}
    (h : parent.index < t.size)
    (hg : Growth P (t.create parent token text).2 ⟨t.size⟩ cs ks t')
    (hp : ∀ n : Node κ, n.token.kind = token.kind → n.children = cs → P n ks) :
  Growth P t parent [⟨t.size⟩] [token.kind] (t'.widen parent ⟨t.size⟩)
  := by
  obtain ⟨m, m', _, hm', _⟩ := hg.node
  rw [widen_eq hm']
  apply (growth_of_nested h hg hp).widenTo

/-! ### Walks -/

theorem filterMap_range_getElem? {α : Type} (l : List α) :
  (List.range l.length).filterMap (fun j => l[j]?) = l
  := by
  induction l with
  | nil => rfl
  | cons a l ih =>
    rw [List.length_cons, List.range_succ_eq_map, List.filterMap_cons]
    simpa [List.filterMap_map, Function.comp_def] using ih

/-- A walk through a tree that has grown from a root meets every node once, in the order in which
they were created. -/
theorem Growth.walk [TokenKind κ] (h : Growth P .single root cs ks t) :
  t.walk.map Prod.snd = (List.range t.size).map NodeId.mk
  := by
  have hch : t.children root = cs := h.children
  have hf : t.Forest P cs ks 1 t.size := h.forest
  have hle := hf.le
  obtain ⟨height, hh⟩ : ∃ k, t.size = k + 1 := ⟨t.size - 1, by omega⟩
  rw [ParseTree.walk, hh, ParseTree.walkFrom, hch, List.map_cons,
    hf.walkFrom height 1 (by omega), hh, List.range_eq_range', List.range'_succ]
  rfl

/-- The nodes that a walk meets are those of the tree if it meets every one once. -/
theorem filterMap_walk (h : t.walk.map Prod.snd = (List.range t.size).map NodeId.mk) :
  (t.walk.filterMap fun p => t.node? p.2) = t.nodes.toList
  := by
  have hw : (t.walk.filterMap fun p => t.node? p.2) = (t.walk.map Prod.snd).filterMap t.node? := by
    rw [List.filterMap_map]
    rfl
  have hget : t.node? ∘ NodeId.mk = fun j => t.nodes.toList[j]? := by
    funext j
    rw [Array.getElem?_toList]
    rfl
  rw [hw, h, List.filterMap_map, hget]
  apply filterMap_range_getElem?

end ParseTree

end Descent
