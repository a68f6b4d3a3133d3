import Descent.Proofs.Partition

/-!
# Nodes over a text

The nodes of a forest lie over a text from one place to another (`ParseTree.Laid`): a token takes
what lies up to the next place, and a routine starts where it was entered, before anything is
skipped, and reaches no farther than what lies below it, and just as far if it has to cover the
whole.  So the tokens make up the text (`ParseTree.Laid.taken`), nodes start one after the other
(`ParseTree.Laid.pairwise`), each at the position of its place (`ParseTree.Laid.located`), and what
lies below a node is laid in turn (`ParseTree.Laid.exists_below`).
-/

namespace Descent

/-! ### Spans and nodes -/

namespace Span

variable {file : String} {before after : List Char}

/-- A span that has grown from another one at the same position, and that reaches no farther than a
text, or just as far if it has to cover the whole. -/
structure Reaches (s origin : Span) (whole : Prop) (upTo : List Char) : Prop where
  file : s.file = origin.file
  position : s.position = origin.position
  start_le : s.start ≤ s.stop
  stop_le : s.stop ≤ byteLength upTo
  stop_eq : whole → s.stop = byteLength upTo

variable {s s' origin : Span} {whole : Prop}

/-- An empty span at a place reaches up to it. -/
theorem reaches_ofPosition (file : String) (before : List Char) (whole : Prop) :
  (ofPosition file (Position.start.advance before) 0).Reaches
    (ofPosition file (Position.start.advance before) 0) whole before
  := by
  have hstop : (ofPosition file (Position.start.advance before) 0).stop = byteLength before := by
    rw [Position.advance_start]
    rfl
  exact ⟨rfl, rfl, Nat.le_add_right _ _, hstop.le, fun _ => hstop⟩

/-- A span that need not cover the whole stays as it is when the text goes on. -/
theorem Reaches.of_isPrefix (h : s.Reaches origin whole before) (hp : before <+: after)
    (hw : ¬ whole) :
  s.Reaches origin whole after
  := ⟨h.file, h.position, h.start_le, h.stop_le.trans (byteLength_le_of_isPrefix hp),
    fun w => absurd w hw⟩

/-- A span that grows by one that starts behind it reaches up to the end of that one. -/
theorem Reaches.widen (h : s.Reaches origin whole before) (hp : before <+: after)
    (hstart : byteLength before ≤ s'.start) (hle : s'.stop ≤ byteLength after)
    (heq : whole → s'.stop = byteLength after) :
  (s.widen s').Reaches origin whole after
  := by
  have hstop := h.stop_le
  have hlong := byteLength_le_of_isPrefix hp
  have hmin : min s.start s'.start = s.start :=
    Nat.min_eq_left (h.start_le.trans (hstop.trans hstart))
  constructor
  · apply h.file
  · rw [← h.position]
    unfold Span.position Span.widen
    rw [hmin]
  · apply Nat.le_trans (start_widen_le s s')
    apply h.start_le.trans (le_stop_widen s s')
  · apply Nat.max_le.mpr ⟨hstop.trans hlong, hle⟩
  · intro w
    apply Nat.max_eq_right (hstop.trans _) |>.trans (heq w)
    rw [heq w]
    apply hlong

end Span

/-- Whether a kind is one of tokens. -/
def SymbolKind.isToken : SymbolKind → Bool
  | .terminal _ | .undetermined => true
  | .root | .nonterminal _ => false

/-- Whether a node is that of a token. -/
def Node.isToken (n : Node SymbolKind) : Bool := n.token.kind.isToken

namespace Node

variable {n : Node SymbolKind} {file : String} {u u' v v' : List Char}

/-- A node lies between two places of a text: its span starts at the position of a place between
them, and does not end behind the second. -/
def LiesIn (n : Node SymbolKind) (file : String) (u v : List Char) : Prop :=
  ∃ before, u <+: before ∧ before <+: v ∧ n.token.span.file = file ∧
    n.token.span.position = Position.start.advance before ∧
      n.token.span.start ≤ n.token.span.stop ∧ n.token.span.stop ≤ byteLength v

theorem LiesIn.mono (h : n.LiesIn file u v) (hu : u' <+: u) (hv : v <+: v') :
  n.LiesIn file u' v'
  := by
  obtain ⟨before, hub, hbv, hfile, hposition, hle, hstop⟩ := h
  exact ⟨before, hu.trans hub, hbv.trans hv, hfile, hposition, hle,
    hstop.trans (byteLength_le_of_isPrefix hv)⟩

/-- A token lies where it is found. -/
theorem liesIn_of_tiles (h : Span.Tiles file u n.token.stretches v) :
  n.LiesIn file u v
  := by
  obtain ⟨before, hu, rfl, hcovers⟩ := Token.covers_of_tiles h
  refine ⟨before, hu, List.prefix_append _ _, hcovers.file, hcovers.position, ?_, ?_⟩
  · rw [hcovers.start, hcovers.stop]
    apply Nat.le_add_right
  · rw [hcovers.stop, byteLength_append]

/-- A routine lies from the place where it starts to the one that it reaches. -/
theorem liesIn_of_reaches {whole : Prop}
    (h : n.token.span.Reaches (.ofPosition file (Position.start.advance u) 0) whole v)
    (hp : u <+: v) :
  n.LiesIn file u v
  := ⟨u, List.prefix_rfl, hp, h.file, h.position, h.start_le, h.stop_le⟩

end Node

/-! ### Nodes over a text -/

namespace ParseTree

/-- The nodes from an index on, in preorder and given the roots of their forest, lie over a text
from one place to another. -/
inductive Laid (t : ParseTree SymbolKind) (file : String) (whole : Prop) :
    List NodeId → List (Node SymbolKind) → Nat → List Char → List Char → Prop
  | nil (a : Nat) (u : List Char) : Laid t file whole [] [] a u u
  | token {a : Nat} {n : Node SymbolKind} {cs : List NodeId} {ns : List (Node SymbolKind)}
      {u v w : List Char} (hn : t.node? ⟨a⟩ = some n) (hk : n.isToken) (hc : n.children = [])
      (hs : Span.Tiles file u n.token.stretches v) (h : Laid t file whole cs ns (a + 1) v w) :
      Laid t file whole (⟨a⟩ :: cs) (n :: ns) a u w
  | routine {a : Nat} {n : Node SymbolKind} {cs : List NodeId} {ms ns : List (Node SymbolKind)}
      {u v w : List Char} (hn : t.node? ⟨a⟩ = some n) (hk : ¬ n.isToken)
      (hs : n.token.span.Reaches (.ofPosition file (Position.start.advance u) 0) whole v)
      (hbody : Laid t file whole n.children ms (a + 1) u v)
      (h : Laid t file whole cs ns (a + 1 + ms.length) v w) :
      Laid t file whole (⟨a⟩ :: cs) (n :: (ms ++ ns)) a u w

namespace Laid

variable {t t' : ParseTree SymbolKind} {file : String} {whole : Prop} {cs ds : List NodeId}
  {ns ms : List (Node SymbolKind)} {a : Nat} {u v w : List Char}

theorem isPrefix (h : t.Laid file whole cs ns a u v) :
  u <+: v
  := by
  induction h with
  | nil a u => apply List.prefix_rfl
  | token _ _ _ hs _ ih => apply hs.isPrefix.trans ih
  | routine _ _ _ _ _ ihbody ih => apply ihbody.trans ih

/-- Nodes stay where they are as long as none of them changes. -/
theorem congr (h : t.Laid file whole cs ns a u v)
    (ht : ∀ j, a ≤ j → j < a + ns.length → t'.node? ⟨j⟩ = t.node? ⟨j⟩) :
  t'.Laid file whole cs ns a u v
  := by
  induction h with
  | nil a u => exact .nil a u
  | @token a n cs ns u v w hn hk hc hs _ ih =>
    rw [List.length_cons] at ht
    apply token _ hk hc hs
    · apply ih
      intro j hj hj'
      apply ht <;> omega
    · rw [ht a (by omega) (by omega), hn]
  | @routine a n cs ms ns u v w hn hk hs _ _ ihbody ih =>
    rw [List.length_cons, List.length_append] at ht
    apply routine _ hk hs
    · apply ihbody
      intro j hj hj'
      apply ht <;> omega
    · apply ih
      intro j hj hj'
      apply ht <;> omega
    · rw [ht a (by omega) (by omega), hn]

/-- Nodes over one text and then over what follows it. -/
theorem append (h : t.Laid file whole cs ns a u v)
    (h' : t.Laid file whole ds ms (a + ns.length) v w) :
  t.Laid file whole (cs ++ ds) (ns ++ ms) a u w
  := by
  induction h with
  | nil a u => apply h'
  | token hn hk hc hs _ ih =>
    apply token hn hk hc hs
    apply ih
    rwa [List.length_cons, Nat.add_comm _ 1, ← Nat.add_assoc] at h'
  | routine hn hk hs hbody _ _ ih =>
    rw [List.cons_append, List.cons_append, List.append_assoc]
    apply routine hn hk hs hbody
    apply ih
    rwa [List.length_cons, List.length_append, Nat.add_comm _ 1, ← Nat.add_assoc,
      ← Nat.add_assoc] at h'

/-- The nodes are those of the tree, in the order of their indices. -/
theorem getElem?_eq (h : t.Laid file whole cs ns a u v) :
  ∀ j < ns.length, t.node? ⟨a + j⟩ = ns[j]?
  := by
  induction h with
  | nil a u => simp
  | token hn _ _ _ _ ih =>
    rintro (_ | j) hj
    · apply hn
    · rw [List.getElem?_cons_succ, ← ih j (Nat.lt_of_succ_lt_succ hj)]
      congr 2
      omega
  | @routine a n cs ms ns u v w hn _ _ _ _ ihbody ih =>
    rintro (_ | j) hj
    · apply hn
    · rw [List.length_cons, List.length_append] at hj
      rw [List.getElem?_cons_succ]
      obtain hlt | hle := Nat.lt_or_ge j ms.length
      · rw [List.getElem?_append_left hlt, ← ihbody j hlt]
        congr 2
        omega
      · rw [List.getElem?_append_right hle, ← ih (j - ms.length) (by omega)]
        congr 2
        omega

/-- What the tokens take makes up the text from one place to the other. -/
theorem taken (h : t.Laid file whole cs ns a u v) :
  u ++ ((ns.filter (·.isToken)).flatMap (·.token.stretches)).flatMap Prod.snd = v
  := by
  induction h with
  | nil a u => apply List.append_nil
  | token _ hk _ hs _ ih =>
    rw [List.filter_cons_of_pos hk, List.flatMap_cons, List.flatMap_append, ← List.append_assoc,
      hs.flatMap_snd, ih]
  | routine _ hk _ _ _ ihbody ih =>
    rw [List.filter_cons_of_neg hk, List.filter_append, List.flatMap_append, List.flatMap_append,
      ← List.append_assoc, ihbody, ih]

/-- Tokens have no children. -/
theorem children_eq_nil (h : t.Laid file whole cs ns a u v) :
  ∀ n ∈ ns, n.isToken → n.children = []
  := by
  induction h with
  | nil a u => simp
  | token _ _ hc _ _ ih => exact List.forall_mem_cons.mpr ⟨fun _ => hc, ih⟩
  | routine _ hk _ _ _ ihbody ih =>
    exact List.forall_mem_cons.mpr ⟨fun h => absurd h hk, List.forall_mem_append.mpr ⟨ihbody, ih⟩⟩

/-- Every node lies between the two places. -/
theorem located (h : t.Laid file whole cs ns a u v) :
  ∀ n ∈ ns, n.LiesIn file u v
  := by
  induction h with
  | nil a u => simp
  | token _ _ _ hs h ih =>
    rw [List.forall_mem_cons]
    constructor
    · apply (Node.liesIn_of_tiles hs).mono List.prefix_rfl h.isPrefix
    · intro m hm
      apply (ih m hm).mono hs.isPrefix List.prefix_rfl
  | routine _ _ hs hbody h ihbody ih =>
    rw [List.forall_mem_cons, List.forall_mem_append]
    refine ⟨?_, ?_, ?_⟩
    · apply (Node.liesIn_of_reaches hs hbody.isPrefix).mono List.prefix_rfl h.isPrefix
    · intro m hm
      apply (ihbody m hm).mono List.prefix_rfl h.isPrefix
    · intro m hm
      apply (ih m hm).mono hbody.isPrefix List.prefix_rfl

theorem bounds (h : t.Laid file whole cs ns a u v) :
  ∀ n ∈ ns, byteLength u ≤ n.token.span.start ∧ n.token.span.start ≤ byteLength v ∧
    n.token.span.stop ≤ byteLength v
  := by
  intro n hn
  obtain ⟨before, hu, hv, _, hposition, _, hstop⟩ := h.located n hn
  rw [Span.start_of_position hposition]
  exact ⟨byteLength_le_of_isPrefix hu, byteLength_le_of_isPrefix hv, hstop⟩

theorem eq_nil (h : t.Laid file whole [] ns a u v) :
  ns = []
  := by
  cases h
  rfl

/-- No node starts before one that comes before it, nor before the end of one without children. -/
theorem pairwise (h : t.Laid file whole cs ns a u v) :
  ns.Pairwise fun m n => m.token.span.start ≤ n.token.span.start ∧
    (m.children = [] → m.token.span.stop ≤ n.token.span.start)
  := by
  induction h with
  | nil a u => apply List.Pairwise.nil
  | @token a n cs ns u v w _ _ _ hs h ih =>
    apply List.pairwise_cons.mpr ⟨?_, ih⟩
    intro m hm
    obtain ⟨before, _, hv, hcovers⟩ := Token.covers_of_tiles hs
    have hstop : n.token.span.stop = byteLength v := by
      rw [hcovers.stop, ← byteLength_append, hv]
    have hstart := hcovers.start
    have hstop' := hcovers.stop
    have hm := (h.bounds m hm).1
    constructor
    · omega
    · intro _
      omega
  | @routine a n cs ms ns u v w _ _ hs hbody h ihbody ih =>
    have hstart : n.token.span.start = byteLength u := Span.start_of_position hs.position
    have hlong := byteLength_le_of_isPrefix hbody.isPrefix
    refine List.pairwise_cons.mpr ⟨?_, List.pairwise_append.mpr ⟨ihbody, ih, ?_⟩⟩
    · rw [List.forall_mem_append]
      constructor
      · intro m hm
        constructor
        · rw [hstart]
          apply (hbody.bounds m hm).1
        · intro hc
          rw [hc] at hbody
          rw [hbody.eq_nil] at hm
          cases hm
      · intro m hm
        have hm := (h.bounds m hm).1
        have hstop := hs.stop_le
        constructor
        · omega
        · intro _
          omega
    · intro m hm m' hm'
      have hm := hbody.bounds m hm
      have hm' := (h.bounds m' hm').1
      constructor
      · omega
      · intro _
        omega

/-- The roots are nodes. -/
theorem exists_of_mem (h : t.Laid file whole cs ns a u v) :
  ∀ c ∈ cs, ∃ n ∈ ns, t.node? c = some n
  := by
  induction h with
  | nil a u => simp
  | token hn _ _ _ _ ih =>
    rw [List.forall_mem_cons]
    refine ⟨⟨_, List.mem_cons_self, hn⟩, ?_⟩
    intro c hc
    obtain ⟨m, hm, hcm⟩ := ih c hc
    exact ⟨m, List.mem_cons_of_mem _ hm, hcm⟩
  | routine hn _ _ _ _ _ ih =>
    rw [List.forall_mem_cons]
    refine ⟨⟨_, List.mem_cons_self, hn⟩, ?_⟩
    intro c hc
    obtain ⟨m, hm, hcm⟩ := ih c hc
    exact ⟨m, List.mem_cons_of_mem _ (List.mem_append_right _ hm), hcm⟩

/-- The roots start at or after the place from which on they are laid. -/
theorem le_start (h : t.Laid file whole cs ns a u v) :
  ∀ n ∈ cs.filterMap t.node?, byteLength u ≤ n.token.span.start
  := by
  intro n hn
  obtain ⟨c, hc, hcn⟩ := List.mem_filterMap.mp hn
  obtain ⟨m, hm, hcm⟩ := h.exists_of_mem c hc
  rw [hcn, Option.some_inj] at hcm
  rw [hcm]
  apply (h.bounds m hm).1

/-- No root starts before the end of one that comes before it. -/
theorem roots (h : t.Laid file whole cs ns a u v) :
  (cs.filterMap t.node?).Pairwise fun m n => m.token.span.stop ≤ n.token.span.start
  := by
  induction h with
  | nil a u => apply List.Pairwise.nil
  | token hn _ _ hs h ih =>
    rw [List.filterMap_cons_some hn, List.pairwise_cons]
    refine ⟨?_, ih⟩
    intro m hm
    obtain ⟨before, _, hv, hcovers⟩ := Token.covers_of_tiles hs
    rw [hcovers.stop, ← byteLength_append, hv]
    apply h.le_start m hm
  | routine hn _ hs _ h _ ih =>
    rw [List.filterMap_cons_some hn, List.pairwise_cons]
    refine ⟨?_, ih⟩
    intro m hm
    apply hs.stop_le.trans (h.le_start m hm)

/-- Below every node that has children they are laid from its start on, and up to its end if it has
to cover the whole. -/
theorem exists_below (h : t.Laid file whole cs ns a u v) :
  ∀ n ∈ ns, n.children = [] ∨ ∃ ms b x y, t.Laid file whole n.children ms b x y ∧
    n.token.span.start = byteLength x ∧ (whole → n.token.span.stop = byteLength y)
  := by
  induction h with
  | nil a u => simp
  | token _ _ hc _ _ ih => exact List.forall_mem_cons.mpr ⟨.inl hc, ih⟩
  | routine _ _ hs hbody _ ihbody ih =>
    rw [List.forall_mem_cons, List.forall_mem_append]
    exact ⟨.inr ⟨_, _, _, _, hbody, Span.start_of_position hs.position, hs.stop_eq⟩, ihbody, ih⟩

end Laid

end ParseTree

end Descent
