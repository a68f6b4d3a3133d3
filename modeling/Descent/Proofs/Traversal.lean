import Mathlib.Data.List.Nodup
import Mathlib.Data.Set.Card
import Mathlib.Logic.Relation
import Descent.Proofs.Activations

/-!
# Walks through parse trees

A tree that is built by adding nodes below nodes that it has links each node to its children and
back, and children come after their parents (`ParseTree.Linked`, `ParseTree.Built.linked`).  So there
is nothing to go round in, and a walk may keep what it still has to visit on a stack
(`ParseTree.Pops`).

* From a node on, the walk visits the node and then what is below its children
  (`ParseTree.Linked.walkBelow_eq`), a stretch of the whole walk
  (`ParseTree.Linked.infix_walkBelow`).
* It visits the node and all that descend from it (`ParseTree.Linked.mem_walkBelow_iff`), each once
  (`ParseTree.Linked.nodup_walkBelow`) and as deep as it has ancestors
  (`ParseTree.Linked.ncard_ancestors`).
* Trees of parses are built in this way, and in the order of the walk
  (`Interpreter.Runs.built`, `Interpreter.walk_of_parse?`).
-/

namespace Descent

namespace ParseTree

variable {κ : Type} {t t' : ParseTree κ} {id n p c : NodeId} {d e : Nat}

/-- A tree that is built from a root: nodes and tokens are added below nodes that it has, and nodes
that it has are widened. -/
inductive Built [TokenKind κ] : ParseTree κ → Prop
  | single : Built single
  | create {t : ParseTree κ} (h : Built t) {parent : NodeId} (hp : parent.index < t.size)
      (token : Token κ) (text : String) : Built (t.create parent token text).2
  | addToken {t : ParseTree κ} (h : Built t) (name : κ → String) {node : NodeId}
      (hn : node.index < t.size) (token : Token κ) : Built (t.addToken name node token).2
  | widen {t : ParseTree κ} (h : Built t) {target source : NodeId} (ht : target.index < t.size)
      (hs : source.index < t.size) : Built (t.widen target source)
  | addError {t : ParseTree κ} (h : Built t) (e : Diagnostic) : Built (t.addError e)

/-! ### Links -/

/-- The node right above a node. -/
def parent? (t : ParseTree κ) (id : NodeId) : Option NodeId := (t.node? id).bind (·.parent)

/-- One node is right below another one. -/
def IsChild (t : ParseTree κ) (c p : NodeId) : Prop := t.parent? c = some p

/-- The nodes above a node. -/
def ancestors (t : ParseTree κ) (id : NodeId) : Set NodeId := { a | Relation.TransGen t.IsChild id a }

/-- Nodes are linked to their children and back, and come before them; only the root has nothing
above it. -/
structure Linked (t : ParseTree κ) : Prop where
  size_pos : 0 < t.size
  parent_root : t.parent? root = none
  exists_parent : ∀ id, id.index < t.size → id ≠ root → ∃ p, t.parent? id = some p
  parent_lt : ∀ c p, t.parent? c = some p → p.index < c.index
  mem_children_iff : ∀ p c, c ∈ t.children p ↔ t.parent? c = some p
  ordered : ∀ p, (t.children p).Pairwise fun a b => a.index < b.index

theorem lt_size_of_parent? (h : t.parent? c = some p) :
  c.index < t.size
  := by
  obtain ⟨n, hn, -⟩ := Option.bind_eq_some_iff.mp h
  exact lt_size_of_node? hn

theorem Linked.congr (h : t.Linked) (hsize : t'.size = t.size)
    (hparent : ∀ id, t'.parent? id = t.parent? id)
    (hchildren : ∀ id, t'.children id = t.children id) :
  t'.Linked
  := by
  constructor
  case size_pos => exact hsize ▸ h.size_pos
  case parent_root => exact (hparent root).trans h.parent_root
  case exists_parent =>
    intro id hid hne
    rw [hparent]
    exact h.exists_parent id (hsize ▸ hid) hne
  case parent_lt =>
    intro c p hp
    exact h.parent_lt c p ((hparent c).symm.trans hp)
  case mem_children_iff =>
    intro p c
    rw [hparent, hchildren]
    apply h.mem_children_iff
  case ordered =>
    intro p
    rw [hchildren]
    apply h.ordered

theorem parent?_create (t : ParseTree κ) (parent : NodeId) (token : Token κ) (text : String)
    (id : NodeId) :
  (t.create parent token text).2.parent? id =
    if id = ⟨t.size⟩ then some parent else t.parent? id
  := by
  obtain ⟨j⟩ := id
  simp only [parent?, node?, getElem?_create, NodeId.mk.injEq]
  by_cases hj : j = t.size
  · rw [if_pos hj, if_pos hj, Option.bind_some]
  · rw [if_neg hj, if_neg hj]
    split
    · cases t.nodes[j]? <;> rfl
    · rfl

theorem children_create (t : ParseTree κ) {parent : NodeId} (h : parent.index < t.size)
    (token : Token κ) (text : String) (id : NodeId) :
  (t.create parent token text).2.children id =
    if id = parent then t.children id ++ [⟨t.size⟩] else t.children id
  := by
  obtain ⟨j⟩ := id
  obtain ⟨q⟩ := parent
  simp only [children, node?, getElem?_create, NodeId.mk.injEq]
  by_cases hj : j = t.size
  · have hnone : t.nodes[j]? = none := Array.getElem?_eq_none (Nat.le_of_eq hj.symm)
    rw [if_pos hj, if_neg (fun hq => Nat.ne_of_lt h (hq.symm.trans hj)), hnone]
  · rw [if_neg hj]
    by_cases hq : j = q
    · have hlt : (⟨j⟩ : NodeId).index < t.size := hq ▸ h
      obtain ⟨n, hn⟩ : ∃ n, t.nodes[j]? = some n := exists_node?_of_lt_size hlt
      rw [if_pos hq, if_pos hq, hn]
      rfl
    · rw [if_neg hq, if_neg hq]

theorem Linked.create (h : t.Linked) {parent : NodeId} (hp : parent.index < t.size)
    (token : Token κ) (text : String) :
  (t.create parent token text).2.Linked
  := by
  have hnone : t.parent? ⟨t.size⟩ = none := by
    by_contra hne
    obtain ⟨p, hp⟩ := Option.ne_none_iff_exists'.mp hne
    exact Nat.lt_irrefl _ (lt_size_of_parent? hp)
  constructor
  case size_pos =>
    rw [size_create]
    apply Nat.succ_pos
  case parent_root =>
    have hne : root ≠ ⟨t.size⟩ := fun heq => h.size_pos.ne (congrArg NodeId.index heq)
    rw [parent?_create, if_neg hne, h.parent_root]
  case exists_parent =>
    intro id hid hne
    rw [parent?_create]
    split
    case isTrue => exact ⟨parent, rfl⟩
    case isFalse hlast =>
      rw [size_create] at hid
      have hindex : id.index ≠ t.size := fun heq => hlast (congrArg NodeId.mk heq)
      exact h.exists_parent id (by omega) hne
  case parent_lt =>
    intro c p hc
    rw [parent?_create] at hc
    split at hc
    case isTrue hlast =>
      cases hc
      rw [hlast]
      exact hp
    case isFalse => exact h.parent_lt c p hc
  case mem_children_iff =>
    intro p c
    rw [parent?_create, children_create t hp]
    by_cases hc : c = ⟨t.size⟩
    · have hnot : c ∉ t.children p := by
        rw [h.mem_children_iff, hc, hnone]
        exact nofun
      rw [if_pos hc, Option.some_inj]
      split
      case isTrue heq => simp [hc, heq]
      case isFalse hne => simp [hnot, Ne.symm hne]
    · rw [if_neg hc, ← h.mem_children_iff]
      split
      case isTrue => simp [hc]
      case isFalse => rfl
  case ordered =>
    intro p
    rw [children_create t hp]
    split
    case isFalse => exact h.ordered p
    case isTrue =>
      rw [List.pairwise_append]
      refine ⟨h.ordered p, List.pairwise_singleton _ _, ?_⟩
      intro a ha b hb
      rw [List.mem_singleton.mp hb]
      exact lt_size_of_parent? ((h.mem_children_iff p a).mp ha)

theorem Linked.widenTo (h : t.Linked) (target : NodeId) (span : Span) :
  (t.widenTo target span).Linked
  := by
  apply h.congr (size_widenTo t target span)
  · intro id
    rw [parent?, node?, getElem?_widenTo, parent?, node?]
    split
    · cases t.nodes[id.index]? <;> rfl
    · rfl
  · intro id
    apply children_widenTo

theorem size_widen (t : ParseTree κ) (target source : NodeId) :
  (t.widen target source).size = t.size
  := by
  unfold widen
  split
  · apply size_widenTo
  · rfl

/-- A tree that is built is linked. -/
theorem Built.linked [TokenKind κ] (h : t.Built) :
  t.Linked
  := by
  induction h with
  | single =>
    have hindex : ∀ j, j ≠ 0 → (ParseTree.single : ParseTree κ).nodes[j]? = none := by
      intro j hj
      exact Array.getElem?_eq_none (Nat.one_le_iff_ne_zero.mpr hj)
    have hparent : ∀ id, (ParseTree.single : ParseTree κ).parent? id = none := by
      rintro ⟨_ | j⟩
      · rfl
      · rw [parent?, node?, hindex _ (Nat.succ_ne_zero j), Option.bind_none]
    have hchildren : ∀ id, (ParseTree.single : ParseTree κ).children id = [] := by
      rintro ⟨_ | j⟩
      · rfl
      · rw [children, node?, hindex _ (Nat.succ_ne_zero j)]
    constructor
    case size_pos => exact Nat.one_pos
    case parent_root => exact hparent root
    case exists_parent =>
      intro id hid hne
      exact absurd (congrArg NodeId.mk (Nat.lt_one_iff.mp hid)) hne
    case parent_lt =>
      intro c p hp
      rw [hparent] at hp
      cases hp
    case mem_children_iff =>
      intro p c
      simp [hparent, hchildren]
    case ordered =>
      intro p
      rw [hchildren]
      exact .nil
  | create _ hp token text ih => exact ih.create hp token text
  | addToken _ name hn token ih => exact (ih.create hn token _).widenTo _ _
  | widen _ _ hs ih =>
    obtain ⟨n, hn⟩ := exists_node?_of_lt_size hs
    rw [widen_eq hn]
    exact Linked.widenTo ih _ _
  | addError _ e ih => exact ih.congr rfl (fun _ => rfl) fun _ => rfl

theorem Linked.lt_of_mem_children (h : t.Linked) (hc : c ∈ t.children n) :
  n.index < c.index ∧ c.index < t.size
  := by
  have hparent := (h.mem_children_iff n c).mp hc
  exact ⟨h.parent_lt c n hparent, lt_size_of_parent? hparent⟩

/-- What holds of a node if it holds of its children holds of every node. -/
@[elab_as_elim]
theorem Linked.of_children (h : t.Linked) {motive : NodeId → Prop}
    (step : ∀ n, n.index < t.size → (∀ c ∈ t.children n, motive c) → motive n)
    (hn : n.index < t.size) :
  motive n
  := by
  induction hk : t.size - n.index using Nat.strongRecOn generalizing n with
  | ind k ih =>
    apply step n hn
    intro c hc
    obtain ⟨hlt, hsize⟩ := h.lt_of_mem_children hc
    exact ih (t.size - c.index) (by omega) hsize rfl

theorem Linked.lt_of_ancestors (h : t.Linked) (ha : n ∈ t.ancestors id) :
  n.index < id.index
  := by
  induction ha with
  | single hc => exact h.parent_lt _ _ hc
  | tail _ hc ih => exact (h.parent_lt _ _ hc).trans ih

/-! ### The nodes below a node -/

/-- The walk from a node on. -/
def walkBelow (t : ParseTree κ) (depth : Nat) (id : NodeId) : List (Nat × NodeId) :=
  t.walkFrom t.size depth id

/-- Going down more levels than there are nodes left makes no difference. -/
theorem Linked.walkFrom_eq (h : t.Linked) (height height' : Nat) : ∀ {d : Nat} {n : NodeId},
    n.index < t.size → t.size ≤ n.index + height → t.size ≤ n.index + height' →
  t.walkFrom height d n = t.walkFrom height' d n
  := by
  induction height generalizing height' with
  | zero =>
    intro d n hn hle _
    omega
  | succ height ih =>
    intro d n hn hle hle'
    obtain ⟨height', rfl⟩ : ∃ k, height' = k + 1 := ⟨height' - 1, by omega⟩
    rw [walkFrom, walkFrom]
    congr 1
    apply List.flatMap_congr
    intro c hc
    obtain ⟨hlt, hsize⟩ := h.lt_of_mem_children hc
    apply ih height' hsize <;> omega

/-- A walk visits a node, and then what is below its children. -/
theorem Linked.walkBelow_eq (h : t.Linked) (hn : n.index < t.size) (d : Nat) :
  t.walkBelow d n = (d, n) :: (t.children n).flatMap (t.walkBelow (d + 1))
  := by
  obtain ⟨height, hheight⟩ : ∃ k, t.size = k + 1 := ⟨t.size - 1, by omega⟩
  rw [walkBelow, hheight, walkFrom]
  congr 1
  apply List.flatMap_congr
  intro c hc
  obtain ⟨hlt, hsize⟩ := h.lt_of_mem_children hc
  apply h.walkFrom_eq height t.size hsize <;> omega

theorem Linked.mem_walkBelow_self (h : t.Linked) (hn : n.index < t.size) (d : Nat) :
  (d, n) ∈ t.walkBelow d n
  := by
  rw [h.walkBelow_eq hn]
  apply List.mem_cons_self

/-- What a walk visits below a node of it is a stretch of the walk. -/
theorem Linked.infix_walkBelow (h : t.Linked) (hn : n.index < t.size) (e : Nat)
    (hid : (d, id) ∈ t.walkBelow e n) :
  t.walkBelow d id <:+: t.walkBelow e n
  := by
  revert e
  refine h.of_children ?_ hn
  intro n hn ih e hid
  have heq := h.walkBelow_eq hn e
  rw [heq, List.mem_cons, List.mem_flatMap] at hid
  obtain hid | ⟨c, hc, hid⟩ := hid
  · cases hid
    exact List.infix_rfl
  · obtain ⟨before, after, hsplit⟩ := List.append_of_mem hc
    refine (ih c hc (e + 1) hid).trans ?_
    rw [heq, hsplit, List.flatMap_append, List.flatMap_cons]
    exact ⟨(e, n) :: before.flatMap (t.walkBelow (e + 1)), after.flatMap (t.walkBelow (e + 1)),
      by simp⟩

/-- The children of a node that a walk visits are visited one level deeper. -/
theorem Linked.mem_walkBelow_of_isChild (h : t.Linked) (hn : n.index < t.size)
    (hp : (d, p) ∈ t.walkBelow e n) (hc : t.IsChild c p) (hlt : p.index < t.size) :
  (d + 1, c) ∈ t.walkBelow e n
  := by
  apply (h.infix_walkBelow hn e hp).mem
  rw [h.walkBelow_eq hlt]
  apply List.mem_cons_of_mem
  apply List.mem_flatMap_of_mem ((h.mem_children_iff p c).mpr hc)
  exact h.mem_walkBelow_self (lt_size_of_parent? hc) (d + 1)

/-- Nodes that a walk visits are the one it starts with and children of others that it visits. -/
theorem Linked.exists_parent_of_mem_walkBelow (h : t.Linked) (hn : n.index < t.size) (e : Nat)
    (hc : (d, c) ∈ t.walkBelow e n) :
  (d, c) = (e, n) ∨ ∃ d' p, d = d' + 1 ∧ t.IsChild c p ∧ (d', p) ∈ t.walkBelow e n
  := by
  revert e
  refine h.of_children ?_ hn
  intro n hn ih e hc
  have heq := h.walkBelow_eq hn e
  rw [heq, List.mem_cons, List.mem_flatMap] at hc
  obtain hc | ⟨b, hb, hc⟩ := hc
  · exact .inl hc
  · obtain hself | ⟨d', p, hd, hp, hmem⟩ := ih b hb (e + 1) hc
    · cases hself
      exact .inr ⟨e, n, rfl, (h.mem_children_iff n c).mp hb, h.mem_walkBelow_self hn e⟩
    · refine .inr ⟨d', p, hd, hp, ?_⟩
      rw [heq]
      exact List.mem_cons_of_mem _ (List.mem_flatMap_of_mem hb hmem)

/-- From a node on, a walk visits the node and all that descend from it. -/
theorem Linked.mem_walkBelow_iff (h : t.Linked) (hn : n.index < t.size) (e : Nat) :
  id ∈ (t.walkBelow e n).map Prod.snd ↔ Relation.ReflTransGen t.IsChild id n
  := by
  constructor
  · revert e
    refine h.of_children ?_ hn
    intro n hn ih e hid
    rw [h.walkBelow_eq hn, List.map_cons, List.mem_cons, List.map_flatMap, List.mem_flatMap] at hid
    obtain rfl | ⟨c, hc, hid⟩ := hid
    · exact .refl
    · exact (ih c hc _ hid).tail ((h.mem_children_iff n c).mp hc)
  · intro hid
    induction hid using Relation.ReflTransGen.head_induction_on with
    | refl => exact List.mem_map_of_mem (h.mem_walkBelow_self hn e)
    | head hc hdesc ih =>
      obtain ⟨⟨d, p⟩, hp, rfl⟩ := List.mem_map.mp ih
      have hlt := (h.parent_lt _ _ hc).trans (lt_size_of_parent? hc)
      exact List.mem_map_of_mem (h.mem_walkBelow_of_isChild hn hp hc hlt)

/-- Nothing descends from two children of one node. -/
theorem Linked.eq_of_descends (h : t.Linked) {a b : NodeId} (ha : t.IsChild a p)
    (hb : t.IsChild b p) (hida : Relation.ReflTransGen t.IsChild id a)
    (hidb : Relation.ReflTransGen t.IsChild id b) :
  a = b
  := by
  have hunique : Relator.RightUnique t.IsChild := fun c p q hp hq =>
    Option.some_inj.mp (hp.symm.trans hq)
  -- Of two children one would be above the other, and then above the node above both.
  have habove : ∀ {a b : NodeId}, t.IsChild a p → t.IsChild b p →
      Relation.ReflTransGen t.IsChild a b → a = b := by
    intro a b ha hb hab
    obtain rfl | ⟨q, hq, hqb⟩ := hab.cases_head
    · rfl
    · obtain rfl : q = p := hunique hq ha
      have hlt := h.parent_lt b q hb
      obtain rfl | hqb := Relation.reflTransGen_iff_eq_or_transGen.mp hqb
      · exact absurd hlt (Nat.lt_irrefl _)
      · exact absurd (h.lt_of_ancestors hqb) hlt.not_gt
  obtain hab | hba := Relation.ReflTransGen.total_of_right_unique hunique hida hidb
  · exact habove ha hb hab
  · exact (habove hb ha hba).symm

/-- A walk visits nothing twice. -/
theorem Linked.nodup_walkBelow (h : t.Linked) (hn : n.index < t.size) (e : Nat) :
  ((t.walkBelow e n).map Prod.snd).Nodup
  := by
  revert e
  refine h.of_children ?_ hn
  intro n hn ih e
  rw [h.walkBelow_eq hn, List.map_cons, List.map_flatMap, List.nodup_cons, List.nodup_flatMap]
  refine ⟨?_, fun c hc => ih c hc _, ?_⟩
  · intro hmem
    obtain ⟨c, hc, hmem⟩ := List.mem_flatMap.mp hmem
    obtain ⟨hlt, hsize⟩ := h.lt_of_mem_children hc
    obtain rfl | hdesc := Relation.reflTransGen_iff_eq_or_transGen.mp
      ((h.mem_walkBelow_iff hsize _).mp hmem)
    · exact Nat.lt_irrefl _ hlt
    · exact absurd (h.lt_of_ancestors hdesc) hlt.not_gt
  · apply (h.ordered n).imp_of_mem
    intro a b ha hb hlt id hida hidb
    rw [h.mem_walkBelow_iff (h.lt_of_mem_children ha).2] at hida
    rw [h.mem_walkBelow_iff (h.lt_of_mem_children hb).2] at hidb
    have heq := h.eq_of_descends ((h.mem_children_iff n a).mp ha) ((h.mem_children_iff n b).mp hb)
      hida hidb
    exact hlt.ne (congrArg NodeId.index heq)

/-! ### The whole walk -/

theorem Linked.descends_root (h : t.Linked) (hid : id.index < t.size) :
  Relation.ReflTransGen t.IsChild id root
  := by
  induction hk : id.index using Nat.strongRecOn generalizing id with
  | ind k ih =>
    by_cases hroot : id = root
    · rw [hroot]
    · obtain ⟨p, hp⟩ := h.exists_parent id hid hroot
      have hlt := h.parent_lt id p hp
      exact .head hp (ih p.index (hk ▸ hlt) (hlt.trans hid) rfl)

/-- A walk visits every node. -/
theorem Linked.mem_walk_iff (h : t.Linked) :
  id ∈ t.walk.map Prod.snd ↔ id.index < t.size
  := by
  refine (h.mem_walkBelow_iff h.size_pos 0).trans ⟨?_, h.descends_root⟩
  intro hid
  obtain rfl | ⟨p, hp, -⟩ := hid.cases_head
  · exact h.size_pos
  · exact lt_size_of_parent? hp

theorem Linked.perm_walk (h : t.Linked) :
  (t.walk.map Prod.snd).Perm ((List.range t.size).map NodeId.mk)
  := by
  have hrange : ((List.range t.size).map NodeId.mk).Nodup :=
    List.nodup_range.map fun _ _ heq => congrArg NodeId.index heq
  apply (List.perm_ext_iff_of_nodup (h.nodup_walkBelow h.size_pos 0) hrange).mpr
  rintro ⟨j⟩
  refine h.mem_walk_iff.trans ?_
  simp

/-- A walk visits a node as deep as it has ancestors. -/
theorem Linked.ncard_ancestors (h : t.Linked) (hid : (d, id) ∈ t.walk) :
  (t.ancestors id).ncard = d
  := by
  suffices hfinite : (t.ancestors id).Finite ∧ (t.ancestors id).ncard = d from hfinite.2
  induction hk : id.index using Nat.strongRecOn generalizing id d with
  | ind k ih =>
    obtain hroot | ⟨d', p, rfl, hp, hmem⟩ := h.exists_parent_of_mem_walkBelow h.size_pos 0 hid
    · have hempty : t.ancestors root = ∅ := by
        apply Set.eq_empty_of_forall_notMem
        intro a ha
        exact absurd (h.lt_of_ancestors ha) (Nat.not_lt_zero _)
      obtain ⟨hd, hid⟩ := Prod.mk.inj hroot
      rw [show id = root from hid, hd, hempty]
      exact ⟨Set.finite_empty, Set.ncard_empty _⟩
    · have hlt := h.parent_lt id p hp
      obtain ⟨hfinite, hcard⟩ := ih p.index (hk ▸ hlt) hmem rfl
      have hinsert : t.ancestors id = insert p (t.ancestors p) := by
        ext a
        refine Relation.TransGen.head'_iff.trans ?_
        constructor
        · rintro ⟨q, hq, ha⟩
          obtain rfl : q = p := Option.some_inj.mp (hq.symm.trans hp)
          exact Relation.reflTransGen_iff_eq_or_transGen.mp ha
        · intro ha
          exact ⟨p, hp, Relation.reflTransGen_iff_eq_or_transGen.mpr ha⟩
      rw [hinsert]
      have hnot : p ∉ t.ancestors p := fun hmem => Nat.lt_irrefl _ (h.lt_of_ancestors hmem)
      exact ⟨hfinite.insert p, by rw [Set.ncard_insert_of_notMem hnot hfinite, hcard]⟩

/-- A walk visits a node before its children, and these in the order in which they were created. -/
theorem Linked.sublist_walk (h : t.Linked) (hn : n.index < t.size) :
  (n :: t.children n).Sublist (t.walk.map Prod.snd)
  := by
  obtain ⟨⟨d, _⟩, hmem, rfl⟩ := List.mem_map.mp (h.mem_walk_iff.mpr hn)
  have hinfix := (h.infix_walkBelow h.size_pos 0 hmem).sublist.map Prod.snd
  rw [h.walkBelow_eq hn, List.map_cons, List.map_flatMap] at hinfix
  refine List.Sublist.trans (List.Sublist.cons_cons _ ?_) hinfix
  have hchildren : ∀ cs : List NodeId, (∀ c ∈ cs, c.index < t.size) →
      cs.Sublist (cs.flatMap fun c => (t.walkBelow (d + 1) c).map Prod.snd) := by
    intro cs
    induction cs with
    | nil => exact fun _ => .slnil
    | cons c cs ih =>
      intro hcs
      rw [List.forall_mem_cons] at hcs
      rw [List.flatMap_cons, h.walkBelow_eq hcs.1]
      exact ((ih hcs.2).trans (List.sublist_append_right _ _)).cons_cons c
  apply hchildren
  intro c hc
  exact (h.lt_of_mem_children hc).2

/-! ### Walking with a stack -/

/-- From a stack of nodes with their depths on, a walk comes to an end and has visited the given
ones: a node is taken from the top, and its children are put there instead, the first one on top. -/
inductive Pops (t : ParseTree κ) : List (Nat × NodeId) → List (Nat × NodeId) → Prop
  | nil : Pops t [] []
  | cons {depth : Nat} {id : NodeId} {stack visited : List (Nat × NodeId)}
      (h : Pops t ((t.children id).map (Prod.mk (depth + 1)) ++ stack) visited) :
      Pops t ((depth, id) :: stack) ((depth, id) :: visited)

theorem Pops.unique {stack visited visited' : List (Nat × NodeId)} (h : t.Pops stack visited)
    (h' : t.Pops stack visited') :
  visited' = visited
  := by
  induction h generalizing visited' with
  | nil =>
    cases h'
    rfl
  | cons _ ih =>
    cases h' with
    | cons h' => rw [ih h']

/-- What is below the node on top of the stack is visited first. -/
theorem Linked.pops_cons (h : t.Linked) (hn : n.index < t.size) (d : Nat)
    {stack visited : List (Nat × NodeId)} (hstack : t.Pops stack visited) :
  t.Pops ((d, n) :: stack) (t.walkBelow d n ++ visited)
  := by
  revert d stack visited
  refine h.of_children ?_ hn
  intro n hn ih d stack visited hstack
  rw [h.walkBelow_eq hn, List.cons_append]
  apply Pops.cons
  revert ih
  generalize t.children n = cs
  intro ih
  induction cs with
  | nil => exact hstack
  | cons c cs ihcs =>
    rw [List.forall_mem_cons] at ih
    rw [List.map_cons, List.cons_append, List.flatMap_cons, List.append_assoc]
    exact ih.1 (d + 1) (ihcs ih.2)

theorem Linked.pops_root_iff (h : t.Linked) {visited : List (Nat × NodeId)} :
  t.Pops [(0, root)] visited ↔ visited = t.walk
  := by
  have hwalk := h.pops_cons h.size_pos 0 .nil
  rw [List.append_nil] at hwalk
  constructor
  · exact hwalk.unique
  · rintro rfl
    exact hwalk

/-! ### What a walk does -/

/-- The links of a tree agree with each other, and the walk goes along them. -/
structure Traversed (t : ParseTree κ) : Prop where
  /-- A node is among the children of one once if that one is above it, and else not. -/
  count_children : ∀ p c, (t.children p).count c = if t.parent? c = some p then 1 else 0
  parent_eq_none_iff : ∀ id, id.index < t.size → (t.parent? id = none ↔ id = root)
  /-- With a stack, the walk comes to an end, always with the same nodes visited. -/
  pops_root_iff : ∀ visited, t.Pops [(0, root)] visited ↔ visited = t.walk
  /-- Every node is visited once. -/
  perm : (t.walk.map Prod.snd).Perm ((List.range t.size).map NodeId.mk)
  /-- Nodes are visited before their children. -/
  sublist : ∀ n, n.index < t.size → (n :: t.children n).Sublist (t.walk.map Prod.snd)
  /-- Children are in the order in which they were created. -/
  ordered : ∀ n, (t.children n).Pairwise fun a b => a.index < b.index
  /-- A node and all that descend from it are visited one after the other. -/
  contiguous : ∀ n, n.index < t.size → ∃ before nodes after,
    t.walk = before ++ nodes ++ after ∧
      ∀ id, id ∈ nodes.map Prod.snd ↔ Relation.ReflTransGen t.IsChild id n
  depth : ∀ d id, (d, id) ∈ t.walk → d = (t.ancestors id).ncard

theorem Linked.traversed (h : t.Linked) :
  t.Traversed
  := by
  constructor
  case count_children =>
    intro p c
    have hnodup : (t.children p).Nodup := (h.ordered p).imp fun hlt heq =>
      hlt.ne (congrArg NodeId.index heq)
    rw [hnodup.count, if_congr (h.mem_children_iff p c) rfl rfl]
  case parent_eq_none_iff =>
    intro id hid
    constructor
    · intro hnone
      by_contra hne
      obtain ⟨p, hp⟩ := h.exists_parent id hid hne
      rw [hnone] at hp
      cases hp
    · rintro rfl
      exact h.parent_root
  case pops_root_iff => exact fun _ => h.pops_root_iff
  case perm => exact h.perm_walk
  case sublist => exact fun _ => h.sublist_walk
  case ordered => exact h.ordered
  case contiguous =>
    intro n hn
    obtain ⟨⟨d, _⟩, hmem, rfl⟩ := List.mem_map.mp (h.mem_walk_iff.mpr hn)
    obtain ⟨before, after, hsplit⟩ := h.infix_walkBelow h.size_pos 0 hmem
    exact ⟨before, t.walkBelow d _, after, hsplit.symm, fun id => h.mem_walkBelow_iff hn d⟩
  case depth => exact fun d id hmem => (h.ncard_ancestors hmem).symm

end ParseTree

namespace Interpreter

variable {i : Interpreter}

/-! ### Trees of parses -/

/-- Running statements builds on the tree. -/
theorem Runs.built {ss : List Stmt} {node : NodeId} {s : State} {r : Result} (h : Runs i ss node s r) :
    node.index < s.tree.size → s.tree.Built →
  r.2.tree.Built
  := by
  induction h with
  | done node s => exact fun _ hs => hs
  | @expect _ _ _ node s _ _ _ ih =>
    intro hn hs
    have hlt : node.index < s.tree.size + 1 := Nat.lt_succ_of_lt hn
    exact ih (hlt.trans_eq (ParseTree.size_addToken _ _ _ _).symm) (hs.addToken _ hn _)
  | reject _ => exact fun hn hs => (hs.addToken _ hn _).addError _
  | skip _ _ ih => exact ih
  | @call _ _ node s s' _ routine ok _ hbody _ ihbody ih =>
    intro hn hs
    have hsize : (s.enter node routine).2.tree.size = s.tree.size + 1 :=
      ParseTree.size_create _ _ _ _
    have hchild : s.tree.size < (s.enter node routine).2.tree.size := by omega
    have hbuilt := ihbody hchild (hs.create hn _ _)
    obtain ⟨log, htraces⟩ := hbody.exists_traces
    have hle : (s.enter node routine).2.tree.size ≤ s'.tree.size :=
      (htraces.accounts hchild).size_le
    have hn' : node.index < s'.tree.size := by omega
    cases ok with
    | false => exact ih hn' hbuilt
    | true =>
      have hbuilt' : (s'.leave node (s.enter node routine).1).tree.Built :=
        hbuilt.widen hn' (hchild.trans_le hle)
      refine ih ?_ hbuilt'
      rw [if_pos rfl, State.leave, ParseTree.size_widen]
      exact hn'
  | take _ _ ih => exact ih
  | pass _ _ ih => exact ih
  | once _ ih => exact ih
  | again _ _ ih => exact ih
  | stop _ _ ih => exact ih
  | select _ _ ih => exact ih
  | noArm _ => exact fun _ hs => hs.addError _

theorem built_of_parse? {fuel : Nat} {text file : String} {t : ParseTree SymbolKind}
    (h : i.parse? fuel text file = some t) :
  t.Built
  := by
  unfold parse? at h
  split at h
  case h_1 =>
    cases h
    exact ParseTree.Built.single.addError _
  case h_2 start hstart =>
    obtain ⟨r, hr, rfl⟩ := Option.map_eq_some_iff.mp h
    exact (runs_of_exec fuel hr).built Nat.one_pos .single

/-- A parse creates nodes in the order in which a walk visits them. -/
theorem walk_of_parse? {fuel : Nat} {text file : String} {t : ParseTree SymbolKind}
    (h : i.parse? fuel text file = some t) :
  t.walk.map Prod.snd = (List.range t.size).map NodeId.mk
  := by
  unfold parse? at h
  split at h
  case h_1 =>
    cases h
    rfl
  case h_2 start hstart =>
    obtain ⟨r, hr, rfl⟩ := Option.map_eq_some_iff.mp h
    obtain ⟨log, htraces⟩ := (runs_of_exec fuel hr).exists_traces
    obtain ⟨ks, hg⟩ := (htraces.accounts Nat.one_pos).grown
    exact hg.walk

/-- In a tree that is built, links agree and a walk visits every node once, each before those below
it, which come in one stretch; trees of parses, with errors or without, are built in the order of
the walk. -/
theorem built_traversed_and_parse?_walk :
  (∀ {κ : Type} [TokenKind κ] (t : ParseTree κ), t.Built → t.Traversed) ∧
  ∀ (i : Interpreter) (fuel : Nat) (text file : String) (t : ParseTree SymbolKind),
    i.parse? fuel text file = some t →
      t.Built ∧ t.walk.map Prod.snd = (List.range t.size).map NodeId.mk
  := by
  constructor
  · intro κ _ t h
    exact h.linked.traversed
  · intro i fuel text file t h
    exact ⟨built_of_parse? h, walk_of_parse? h⟩

/-- A node that is added below one that others follow is visited before them. -/
theorem traversed_and_parse?_walk_bba :
  (∃ t : ParseTree SymbolKind, t.Built ∧ t.Traversed ∧
    t.walk.map (fun p => (p.1, p.2.index)) = [(0, 0), (1, 1), (2, 3), (1, 2)]) ∧
  ∃ i t, Compilation.bThenA.interpreter? = some i ∧ i.parse? 30 "bba" "" = some t ∧
    t.Traversed ∧ t.walk.map Prod.snd = (List.range t.size).map NodeId.mk
  := by
  constructor
  · let token (n : Nat) : Token SymbolKind :=
      { kind := .nonterminal ⟨n⟩, span := .nowhere, text := "", skipped := [] }
    let t₁ := ((ParseTree.single : ParseTree SymbolKind).create ParseTree.root (token 0) "A").2
    let t₂ := (t₁.addToken (fun _ => "") ParseTree.root (token 1)).2
    let t₃ := (t₂.create ⟨1⟩ (token 2) "C").2
    have hbuilt : (t₃.widen ⟨1⟩ ⟨3⟩).Built :=
      (((ParseTree.Built.single.create (by decide) _ _).addToken _ (by decide) _).create
        (by decide) _ _).widen (by decide) (by decide)
    exact ⟨_, hbuilt, built_traversed_and_parse?_walk.1 _ hbuilt, by decide +kernel⟩
  · have h : (Compilation.bThenA.interpreter?.bind (·.parse? 30 "bba" "")).isSome := by
      decide +kernel
    obtain ⟨t, ht⟩ := Option.isSome_iff_exists.mp h
    obtain ⟨i, hi, ht⟩ := Option.bind_eq_some_iff.mp ht
    obtain ⟨hbuilt, hwalk⟩ := built_traversed_and_parse?_walk.2 i 30 "bba" "" t ht
    exact ⟨i, t, hi, ht, built_traversed_and_parse?_walk.1 t hbuilt, hwalk⟩

end Interpreter

end Descent
