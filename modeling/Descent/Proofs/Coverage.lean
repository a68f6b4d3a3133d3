import Descent.Proofs.Layout
import Descent.Proofs.Soundness

/-!
# Parse trees cover the text that was consumed

Every step of a run lays the nodes that it makes over the text from the place of the scanner to the
one after it, whether or not an error is recorded (`Interpreter.Runs.lays`).  So the tree of a parse
covers the text that was consumed (`Interpreter.parse?_coversText`): its tokens make up that text,
its nodes start one after the other at the positions that they tell, and if no error is recorded
every node contains those below it.
-/

namespace Descent

/-! ### Trees over a text -/

namespace ParseTree

variable {t : ParseTree SymbolKind} {file : String} {whole : Prop} {cs : List NodeId}
  {n : Node SymbolKind} {ns : List (Node SymbolKind)} {v : List Char}

/-- The nodes of a tree, as a walk meets them. -/
def walked (t : ParseTree SymbolKind) : List (Node SymbolKind) :=
  t.walk.filterMap fun p => t.node? p.2

/-- The tokens of a tree, as a walk meets them. -/
def tokens (t : ParseTree SymbolKind) : List (Node SymbolKind) := t.walked.filter (·.isToken)

/-- A tree covers the text that its tokens take, up to some place of a text. -/
structure CoversText (t : ParseTree SymbolKind) (text file : String) : Prop where
  /-- A walk meets every node once. -/
  walked : t.walked = t.nodes.toList
  /-- What the tokens take, with what is skipped before them, is the text up to some place. -/
  taken : (t.tokens.flatMap (·.token.stretches)).flatMap Prod.snd <+: text.toList
  leaves : ∀ n ∈ t.tokens, n.children = []
  ordered : t.walked.Pairwise fun m n => m.token.span.start ≤ n.token.span.start ∧
    (m.children = [] → m.token.span.stop ≤ n.token.span.start)
  /-- A span tells the position of its start, and does not end before it. -/
  located : ∀ id ≠ root, ∀ n, t.node? id = some n → n.token.span.start ≤ n.token.span.stop ∧
    ∃ before, before <+: text.toList ∧ n.token.span.file = file ∧ n.token.span.position =
      ⟨byteLength before, 1 + before.count '\n', 1 + (lastLine before).length⟩
  /-- The spans of the children of a node are disjoint and in order. -/
  disjoint : ∀ id n, t.node? id = some n → (n.children.filterMap t.node?).Pairwise
    fun m m' => m.token.span.stop ≤ m'.token.span.start
  /-- If no error is recorded, a node contains its children. -/
  nested : t.errors = [] → ∀ id n, t.node? id = some n → ∀ c ∈ n.children,
    ∃ m, t.node? c = some m ∧ n.token.span.start ≤ m.token.span.start ∧
      m.token.span.stop ≤ n.token.span.stop

/-- A tree whose root is followed by nodes that are laid below it from the beginning of a text on. -/
structure LaidBelow (t : ParseTree SymbolKind) (file : String) (whole : Prop)
    (n : Node SymbolKind) (ns : List (Node SymbolKind)) (v : List Char) : Prop where
  nodes : t.nodes.toList = n :: ns
  laid : t.Laid file whole n.children ns 1 [] v
  kind : ¬ n.isToken
  start : n.token.span.start = 0
  stop : whole → n.token.span.stop = byteLength v

namespace LaidBelow

/-- Every node but the root is one of those that are laid below it. -/
theorem mem (h : t.LaidBelow file whole n ns v) {id : NodeId} (hid : id ≠ root)
    {m : Node SymbolKind} (hm : t.node? id = some m) :
  m ∈ ns
  := by
  obtain ⟨j⟩ := id
  have hj : t.nodes.toList[j]? = some m := by rw [Array.getElem?_toList, ← hm, node?]
  cases j with
  | zero => exact absurd rfl hid
  | succ j =>
    rw [h.nodes, List.getElem?_cons_succ] at hj
    apply List.mem_of_getElem? hj

/-- Below every node that has children they are laid from its start on. -/
theorem exists_below (h : t.LaidBelow file whole n ns v) {id : NodeId} {m : Node SymbolKind}
    (hm : t.node? id = some m) :
  m.children = [] ∨ ∃ ms b x y, t.Laid file whole m.children ms b x y ∧
    m.token.span.start = byteLength x ∧ (whole → m.token.span.stop = byteLength y)
  := by
  by_cases hid : id = root
  · have hn : t.nodes.toList[0]? = some n := by rw [h.nodes, List.getElem?_cons_zero]
    rw [hid, node?, ← Array.getElem?_toList] at hm
    obtain rfl : n = m := Option.some_inj.mp (hn.symm.trans hm)
    exact .inr ⟨ns, 1, [], v, h.laid, h.start, h.stop⟩
  · apply h.laid.exists_below m (h.mem hid hm)

/-- No node starts before one that comes before it, nor before the end of one without children. -/
theorem pairwise (h : t.LaidBelow file whole n ns v) :
  t.nodes.toList.Pairwise fun m m' => m.token.span.start ≤ m'.token.span.start ∧
    (m.children = [] → m.token.span.stop ≤ m'.token.span.start)
  := by
  rw [h.nodes, List.pairwise_cons]
  refine ⟨?_, h.laid.pairwise⟩
  intro m hm
  rw [h.start]
  refine ⟨Nat.zero_le _, ?_⟩
  intro hnil
  have hl := h.laid
  rw [hnil] at hl
  rw [hl.eq_nil] at hm
  cases hm

/-- A tree whose nodes are laid over what a text begins with covers it. -/
theorem coversText (h : t.LaidBelow file (t.errors = []) n ns v)
    (hwalked : t.walked = t.nodes.toList) {text : String} (hv : v <+: text.toList) :
  t.CoversText text file
  := by
  have htokens : t.tokens = ns.filter (·.isToken) := by
    rw [tokens, hwalked, h.nodes, List.filter_cons_of_neg h.kind]
  constructor
  · apply hwalked
  · have htaken := h.laid.taken
    rw [List.nil_append] at htaken
    rw [htokens, htaken]
    apply hv
  · intro m hm
    rw [htokens] at hm
    obtain ⟨hm, hk⟩ := List.mem_filter.mp hm
    apply h.laid.children_eq_nil m hm hk
  · rw [hwalked]
    apply h.pairwise
  · intro id hid m hm
    obtain ⟨before, _, hb, hf, hposition, hle, _⟩ := h.laid.located m (h.mem hid hm)
    rw [Position.advance_start] at hposition
    exact ⟨hle, before, hb.trans hv, hf, hposition⟩
  · intro id m hm
    obtain hnil | ⟨ms, b, x, y, hbelow, _⟩ := h.exists_below hm
    · rw [hnil]
      apply List.Pairwise.nil
    · apply hbelow.roots
  · intro he id m hm c hc
    obtain hnil | ⟨ms, b, x, y, hbelow, hx, hy⟩ := h.exists_below hm
    · rw [hnil] at hc
      cases hc
    · obtain ⟨k, hk, hck⟩ := hbelow.exists_of_mem c hc
      obtain ⟨hstart, _, hstop⟩ := hbelow.bounds k hk
      rw [hx, hy he]
      exact ⟨k, hck, hstart, hstop⟩

end LaidBelow

/-- The nodes of a tree are its root and those that are laid below it. -/
theorem Laid.toList_eq (h : t.Laid file whole cs ns 1 [] v) (hsize : t.size = 1 + ns.length)
    (hn : t.node? root = some n) :
  t.nodes.toList = n :: ns
  := by
  apply List.ext_getElem?
  intro j
  rw [Array.getElem?_toList]
  cases j with
  | zero => apply hn
  | succ j =>
    rw [List.getElem?_cons_succ]
    obtain hlt | hle := Nat.lt_or_ge j ns.length
    · rw [← h.getElem?_eq j hlt, Nat.add_comm]
      rfl
    · rw [List.getElem?_eq_none hle]
      apply Array.getElem?_eq_none
      apply Nat.le_trans hsize.le
      omega

end ParseTree

/-! ### Runs over a text -/

namespace Interpreter

variable {i : Interpreter}

theorem isPlain_scanner {g : Grammar} (h : g.fileAndLine = none) :
  g.scanner.IsPlain
  := by
  constructor
  · intro p hp
    obtain ⟨u, _, rfl⟩ := List.mem_map.mp hp
    rintro ⟨⟩
  · rw [Grammar.scanner, h]
    rfl

theorem State.Scans.isToken_consume {s : State} {input : List Char} (h : s.Scans i input)
    (node : NodeId) (t : TerminalId) :
  (s.consume i node t).1.kind.isToken
  := by
  have hfound : i.grammar.scanner.Found input (i.grammar.scanner.upcoming s.scanner [.terminal t]) :=
    Scanner.State.Valid.upcoming h _
  obtain hk | ⟨q, hq, hqk, _⟩ := hfound.matched
  · exact congrArg SymbolKind.isToken hk
  · obtain ⟨u, _, rfl⟩ := List.mem_map.mp hq
    exact (congrArg SymbolKind.isToken hqk).symm

/-- A run over a text: the text and its name, the node in which statements are run, the span from
which that node has grown, and whether nodes have to cover the whole. -/
structure Setting where
  file : String
  input : List Char
  node : NodeId
  origin : Span
  whole : Prop

/-- The scanner stands after some text, and the node reaches no farther. -/
structure State.Stands (i : Interpreter) (x : Setting) (s : State) (u : List Char) : Prop where
  scanner : s.scanner.Stands x.file x.input u
  scans : s.Scans i x.input
  node : ∃ n, s.tree.node? x.node = some n ∧ n.token.span.Reaches x.origin x.whole u

/-- A tree in which nodes have grown that lie from one place to another. -/
structure Setting.Lays (x : Setting) (t : ParseTree SymbolKind) (u : List Char)
    (t' : ParseTree SymbolKind) (v : List Char) : Prop where
  grown : ∃ cs ks ns, ParseTree.Growth (fun _ _ => True) t x.node cs ks t' ∧
    t'.size = t.size + ns.length ∧ t'.Laid x.file x.whole cs ns t.size u v

variable {x : Setting} {s s' : State} {t t' t'' : ParseTree SymbolKind} {u v w : List Char}

theorem State.Stands.lt_size (h : s.Stands i x u) :
  x.node.index < s.tree.size
  := by
  obtain ⟨n, hn, _⟩ := h.node
  apply ParseTree.lt_size_of_node? hn

theorem Setting.Lays.refl (h : x.node.index < t.size) :
  x.Lays t u t u
  := ⟨[], [], [], .refl _ h, rfl, .nil _ _⟩

theorem Setting.Lays.isPrefix (h : x.Lays t u t' v) :
  u <+: v
  := by
  obtain ⟨_, _, _, _, _, hl⟩ := h
  apply hl.isPrefix

theorem Setting.Lays.trans (h : x.Lays t u t' v) (h' : x.Lays t' v t'' w) :
  x.Lays t u t'' w
  := by
  obtain ⟨cs, ks, ns, hg, hsize, hl⟩ := h
  obtain ⟨ds, ls, ms, hg', hsize', hl'⟩ := h'
  have hlt := hg.lt_size
  refine ⟨cs ++ ds, ks ++ ls, ns ++ ms, hg.trans hg', ?_, ?_⟩
  · rw [hsize', hsize, List.length_append, Nat.add_assoc]
  · rw [hsize] at hl'
    apply ParseTree.Laid.append _ hl'
    apply hl.congr
    intro j hj hj'
    apply hg'.old j (by omega) (by omega)

/-- Errors do not matter to nodes. -/
theorem Setting.Lays.addError (h : x.Lays t u t' v) (d : Diagnostic) :
  x.Lays t u (t'.addError d) v
  := by
  obtain ⟨cs, ks, ns, hg, hsize, hl⟩ := h
  exact ⟨cs, ks, ns, ⟨hg.old, hg.node, hg.forest.congr fun _ _ _ => rfl⟩, hsize,
    hl.congr fun _ _ _ => rfl⟩

/-- Widening the node in which nodes are laid keeps them laid. -/
theorem Setting.Lays.widen (h : x.Lays t u t' v) (source : NodeId) :
  x.Lays t u (t'.widen x.node source) v
  := by
  obtain ⟨cs, ks, ns, hg, hsize, hl⟩ := h
  have hlt := hg.lt_size
  unfold ParseTree.widen
  split
  · next m _ =>
    refine ⟨cs, ks, ns, hg.widenTo m.token.span, ?_, ?_⟩
    · rw [ParseTree.size_widenTo, hsize]
    · apply hl.congr
      intro j hj _
      apply ParseTree.node?_widenTo_of_ne
      apply Nat.ne_of_gt (Nat.lt_of_lt_of_le hlt hj)
  · exact ⟨cs, ks, ns, hg, hsize, hl⟩

theorem State.Stands.lays (h : s.Stands i x u) :
  x.Lays s.tree u s.tree u
  := .refl h.lt_size

/-- Looking ahead stays at the same place. -/
theorem State.Stands.lookAhead (hg : i.grammar.fileAndLine = none) (h : s.Stands i x u)
    (ts : List TerminalId) :
  (s.lookAhead i ts).2.Stands i x u
  := ⟨h.scanner.lookAhead (isPlain_scanner hg) _, h.scans.lookAhead ts, h.node⟩

/-- A token that is consumed lies from the place of the scanner to the one after it. -/
theorem State.Stands.consume (hg : i.grammar.fileAndLine = none) (h : s.Stands i x u)
    (t : TerminalId) :
  ∃ v, x.Lays s.tree u (s.consume i x.node t).2.tree v ∧ (s.consume i x.node t).2.Stands i x v
  := by
  obtain ⟨v, htiles, hscanner⟩ := h.scanner.scan (isPlain_scanner hg) [.terminal t]
  obtain ⟨n, hn, hreaches⟩ := h.node
  have hlt := h.lt_size
  obtain ⟨inner, hinner, hv, hcovers⟩ := Token.covers_of_tiles htiles
  have hstop : (s.consume i x.node t).1.span.stop = byteLength v := by
    rw [← hv, byteLength_append]
    apply hcovers.stop
  have hstart : byteLength u ≤ (s.consume i x.node t).1.span.start :=
    (byteLength_le_of_isPrefix hinner).trans hcovers.start.ge
  use v
  constructor
  · have hlaid : (s.consume i x.node t).2.tree.Laid x.file x.whole [⟨s.tree.size⟩]
        [⟨(s.consume i x.node t).1, _, some x.node, []⟩] s.tree.size u v :=
      .token (ParseTree.node?_addToken i.grammar.kindName hlt _)
        (h.scans.isToken_consume x.node t) rfl htiles (.nil _ _)
    have hgrowth : ParseTree.Growth (fun _ _ => True) s.tree x.node [⟨s.tree.size⟩]
        [(s.consume i x.node t).1.kind] (s.consume i x.node t).2.tree :=
      ParseTree.growth_addToken i.grammar.kindName hlt trivial
    have hsize : (s.consume i x.node t).2.tree.size = s.tree.size + 1 :=
      ParseTree.size_addToken i.grammar.kindName s.tree x.node _
    exact ⟨_, _, [_], hgrowth, hsize, hlaid⟩
  · refine ⟨hscanner, Scanner.State.Valid.scan h.scans _, _,
      ParseTree.node?_addToken_parent i.grammar.kindName hn _, ?_⟩
    apply hreaches.widen htiles.isPrefix hstart hstop.le fun _ => hstop

/-- The setting of a routine that is called. -/
def Setting.below (x : Setting) (s : State) (u : List Char) : Setting :=
  { x with node := ⟨s.tree.size⟩, origin := .ofPosition x.file (Position.start.advance u) 0 }

/-- A routine starts where it is entered. -/
theorem State.Stands.enter (h : s.Stands i x u) (routine : Routine) :
  (s.enter x.node routine).2.Stands i (x.below s u) u
  := by
  refine ⟨h.scanner, h.scans, _, ParseTree.node?_create .., ?_⟩
  have hspan : s.scanner.cursor.span 0 = .ofPosition x.file (Position.start.advance u) 0 := by
    rw [Cursor.span, h.scanner.cursor.file, h.scanner.cursor.position]
  dsimp only [Scanner.State.here]
  rw [hspan]
  apply Span.reaches_ofPosition

/-- The node of a routine lies where its body was run, and the one above it stays as it was. -/
theorem State.Stands.nested (h : s.Stands i x u) {routine : Routine}
    (hl : (x.below s u).Lays (s.enter x.node routine).2.tree u s'.tree v)
    (hs' : s'.Stands i (x.below s u) v) :
  x.Lays s.tree u s'.tree v ∧
    ∃ n, s'.tree.node? x.node = some n ∧ n.token.span.Reaches x.origin x.whole u
  := by
  obtain ⟨cs, ks, ns, hg, hsize, hl⟩ := hl
  obtain ⟨n, hn, hreaches⟩ := h.node
  obtain ⟨m, hm, hm'⟩ := hs'.node
  have hlt := h.lt_size
  let token := s.scanner.here (.nonterminal routine.nonterminal)
  have hcreated : (s.enter x.node routine).2.tree.size = s.tree.size + 1 :=
    ParseTree.size_create s.tree x.node token routine.name
  have hc := ParseTree.node?_create s.tree x.node token routine.name
  obtain ⟨m₀, m₁, hm₀, hm₁, hchildren, hkind⟩ := hg.node
  obtain rfl : m₀ = _ := Option.some_inj.mp (hm₀.symm.trans hc)
  obtain rfl : m₁ = m := Option.some_inj.mp (hm₁.symm.trans hm)
  obtain rfl : m₁.children = cs := hchildren
  have hroutine : ¬ m₁.isToken := by
    rw [Node.isToken, hkind]
    exact Bool.false_ne_true
  rw [hcreated] at hsize hl
  constructor
  · refine ⟨_, _, m₁ :: (ns ++ []), ParseTree.growth_of_nested hlt hg fun _ _ _ => trivial, ?_,
      .routine hm hroutine hm' hl (.nil _ _)⟩
    rw [hsize, List.append_nil, List.length_cons]
    omega
  · refine ⟨{ n with children := n.children ++ [⟨s.tree.size⟩] }, ?_, hreaches⟩
    have hold := hg.old x.node.index (by omega) (Nat.ne_of_lt hlt)
    apply hold.trans (ParseTree.node?_create_parent hn token routine.name)

/-- A call lays what its routine lays, and reaches as far. -/
theorem State.Stands.call (h : s.Stands i x u) {routine : Routine} {ok : Bool}
    (hl : (x.below s u).Lays (s.enter x.node routine).2.tree u s'.tree v)
    (hs' : s'.Stands i (x.below s u) v) (hok : x.whole → ok = true) :
  x.Lays s.tree u (if ok then s'.leave x.node (s.enter x.node routine).1 else s').tree v ∧
    (if ok then s'.leave x.node (s.enter x.node routine).1 else s').Stands i x v
  := by
  obtain ⟨hlays, n, hn, hreaches⟩ := h.nested hl hs'
  cases ok with
  | false =>
    refine ⟨hlays, hs'.scanner, hs'.scans, n, hn, hreaches.of_isPrefix hlays.isPrefix ?_⟩
    intro w
    cases hok w
  | true =>
    refine ⟨hlays.widen _, ?_⟩
    obtain ⟨m, hm, hm'⟩ := hs'.node
    have hleave : (s'.leave x.node (s.enter x.node routine).1).tree =
      s'.tree.widenTo x.node m.token.span := ParseTree.widen_eq hm
    refine ⟨hs'.scanner, hs'.scans, _, (congrArg (ParseTree.node? · _) hleave).trans
      (ParseTree.node?_widenTo hn _), ?_⟩
    apply hreaches.widen hlays.isPrefix _ hm'.stop_le hm'.stop_eq
    apply (Span.start_of_position hm'.position).ge

/-- Runs of statements lay what they make from the place of the scanner to the one after it, and
reach their end if no error is recorded. -/
theorem Runs.lays (hg : i.grammar.fileAndLine = none) {ss : List Stmt} {node : NodeId} {r : Result}
    (h : Runs i ss node s r) : ∀ {x : Setting} {u : List Char}, x.node = node →
      (x.whole → r.2.tree.errors = []) → s.Stands i x u →
  ∃ v, x.Lays s.tree u r.2.tree v ∧ r.2.Stands i x v ∧ (x.whole → r.1 = true)
  := by
  induction h with
  | done node s =>
    rintro x u rfl _ hs
    exact ⟨u, hs.lays, hs, fun _ => rfl⟩
  | expect _ _ ih =>
    rintro x u rfl he hs
    obtain ⟨v, hl, hv⟩ := hs.consume hg _
    obtain ⟨w, hl', hw⟩ := ih rfl he hv
    exact ⟨w, hl.trans hl', hw⟩
  | reject _ =>
    rintro x u rfl he hs
    obtain ⟨v, hl, hv⟩ := hs.consume hg _
    refine ⟨v, hl.addError _, ⟨hv.scanner, hv.scans, hv.node⟩, ?_⟩
    intro w
    have he := he w
    simp [State.reject, ParseTree.addError] at he
  | skip _ _ ih => apply ih
  | @call n rest node s s' r routine ok _ _ hrest ihbody ih =>
    rintro x u rfl he hs
    -- The run after the call drops no error, so the body has recorded none.
    have he' : x.whole → s'.tree.errors = [] := by
      intro w
      have h := hrest.errors
      rw [he w, List.prefix_nil] at h
      cases ok with
      | true => rwa [if_pos rfl, State.leave, errors_widen] at h
      | false => apply h
    obtain ⟨v, hl, hv, hok⟩ := @ihbody (x.below s u) u rfl he' (hs.enter routine)
    obtain ⟨hl, hv⟩ := hs.call hl hv hok
    obtain ⟨w, hl', hw⟩ := ih rfl he hv
    exact ⟨w, hl.trans hl', hw⟩
  | take _ _ ih =>
    rintro x u rfl he hs
    exact ih rfl he (hs.lookAhead hg _)
  | pass _ _ ih =>
    rintro x u rfl he hs
    exact ih rfl he (hs.lookAhead hg _)
  | once _ ih => apply ih
  | again _ _ ih =>
    rintro x u rfl he hs
    exact ih rfl he (hs.lookAhead hg _)
  | stop _ _ ih =>
    rintro x u rfl he hs
    exact ih rfl he (hs.lookAhead hg _)
  | select _ _ ih =>
    rintro x u rfl he hs
    exact ih rfl he (hs.lookAhead hg _)
  | noArm _ =>
    rintro x u rfl he hs
    have hs' := hs.lookAhead hg
    refine ⟨u, hs.lays.addError _, ⟨(hs' _).scanner, (hs' _).scans, hs.node⟩, ?_⟩
    intro w
    have he := he w
    simp [State.reject, ParseTree.addError] at he

/-! ### Parses -/

/-- The nodes that are laid below the root of a tree are all others. -/
theorem Setting.Lays.laidBelow (h : x.Lays .single [] t v)
    (hx : x.node = ParseTree.root) {n : Node SymbolKind} (hn : t.node? ParseTree.root = some n)
    (hreaches : n.token.span.Reaches .nowhere x.whole v) :
  t.walked = t.nodes.toList ∧ ∃ ns, t.LaidBelow x.file x.whole n ns v
  := by
  obtain ⟨cs, ks, ns, hg, hsize, hl⟩ := h
  rw [hx] at hg
  have hl : t.Laid x.file x.whole cs ns 1 [] v := hl
  have hchildren : n.children = cs := by
    have hchildren := hg.children
    rw [ParseTree.children, hn] at hchildren
    apply hchildren
  have hkind : ¬ n.isToken := by
    obtain ⟨m, m', hm, hm', _, hk⟩ := hg.node
    rw [hn] at hm'
    cases hm
    cases hm'
    rw [Node.isToken, hk]
    exact Bool.false_ne_true
  refine ⟨ParseTree.filterMap_walk hg.walk, ns, hl.toList_eq hsize hn, ?_, hkind,
    congrArg Position.offset hreaches.position, hreaches.stop_eq⟩
  rw [hchildren]
  apply hl

/-- The setting of a whole run. -/
def Setting.top (text file : String) (whole : Prop) : Setting :=
  { file, input := text.toList, node := ParseTree.root, origin := .nowhere, whole }

/-- A run starts at the beginning of its text, with a root that covers nothing. -/
theorem State.stands_start (i : Interpreter) (text file : String) (whole : Prop) :
  State.Stands i (.top text file whole) ⟨.start text file, .single⟩ []
  := by
  refine ⟨Scanner.State.stands_start text file, Scanner.State.valid_start _ text file, _, rfl, ?_⟩
  exact ⟨rfl, rfl, Nat.le_refl _, Nat.le_refl _, fun _ => rfl⟩

/-- Nodes that are laid over what a text begins with make a tree that covers it. -/
theorem Setting.Lays.coversText {text file : String}
    (h : (Setting.top text file (t.errors = [])).Lays .single [] t v) (hv : v <+: text.toList)
    (hroot : ∃ n, t.node? ParseTree.root = some n ∧
      n.token.span.Reaches .nowhere (t.errors = []) v) :
  t.CoversText text file
  := by
  obtain ⟨n, hn, hreaches⟩ := hroot
  obtain ⟨hwalked, ns, hbelow⟩ := h.laidBelow rfl hn hreaches
  apply hbelow.coversText hwalked hv

/-- The tree of a parse covers the text that was consumed. -/
theorem parse?_coversText (hg : i.grammar.fileAndLine = none) {fuel : Nat} {text file : String}
    (h : i.parse? fuel text file = some t) :
  t.CoversText text file
  := by
  have hstart := State.stands_start i text file (t.errors = [])
  unfold parse? at h
  split at h
  · cases h
    apply (hstart.lays.addError noStart).coversText List.nil_prefix hstart.node
  · next n hn =>
    obtain ⟨r, hr, rfl⟩ := Option.map_eq_some_iff.mp h
    obtain ⟨v, hlays, hstands, _⟩ := (runs_of_exec fuel hr).lays hg rfl id hstart
    apply hlays.coversText ⟨_, hstands.scanner.cursor.input.symm⟩ hstands.node

end Interpreter

/-- The compilation of `Start -> 'a' | 'b' Start;` where blanks and line feeds are skipped. -/
def Compilation.bThenAOverLines : Compilation :=
  .ofText (.bare []) ⟨⟨"."⟩, ⟨"."⟩⟩ "[Skip] Blank -> \"[ \n]+\";\nStart -> 'a' | 'b' Start;" ""

/-- A text of two lines that the grammar derives, and one that it does not. -/
theorem Interpreter.parse?_coversText_bThenAOverLines :
  ∃ i t t', Compilation.bThenAOverLines.interpreter? = some i ∧ i.grammar.fileAndLine = none ∧
    i.parse? 30 "b\n b a" "" = some t ∧ t.errors = [] ∧ t.CoversText "b\n b a" "" ∧
    i.parse? 30 "b\n c a" "" = some t' ∧ t'.errors ≠ [] ∧ t'.CoversText "b\n c a" ""
  := by
  have h : Compilation.bThenAOverLines.interpreter?.any fun i => i.grammar.fileAndLine = none ∧
      (i.parse? 30 "b\n b a" "").any (·.errors.isEmpty) ∧
      (i.parse? 30 "b\n c a" "").any (!·.errors.isEmpty) := by
    decide +kernel
  obtain ⟨i, hi, h⟩ := (Option.any_eq_true _ _).mp h
  obtain ⟨hg, h, h'⟩ := of_decide_eq_true h
  obtain ⟨t, ht, he⟩ := (Option.any_eq_true _ _).mp h
  obtain ⟨t', ht', he'⟩ := (Option.any_eq_true _ _).mp h'
  refine ⟨i, t, t', hi, hg, ht, List.isEmpty_iff.mp he, parse?_coversText hg ht, ht', ?_,
    parse?_coversText hg ht'⟩
  simpa using he'

end Descent
