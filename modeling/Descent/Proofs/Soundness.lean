import Descent.Pattern.Compiled
import Descent.Proofs.Growth
import Descent.Proofs.Lowering
import Descent.Proofs.Run
import Descent.Proofs.Scanning

/-!
# Parses are derivations

A run that records no error grows the tree by a forest of derivations: the kinds below a nonterminal
make up a word of one of its alternatives, and a terminal carries a text that its pattern matched
(`Interpreter.Runs.outcome`).  So a parse without errors gives a derivation tree of the whole
(`Interpreter.parse?_isDerivation`).
-/

namespace Descent

/-- The kind of the nodes of a symbol. -/
def Symbol.kind : Symbol → SymbolKind
  | .terminal t => .terminal t
  | .nonterminal n => .nonterminal n

/-- A node is right for a grammar and an input, given the kinds of its children: a terminal has none
and carries a text that its pattern matched, and those of a nonterminal make up a word of one of its
alternatives. -/
def Grammar.Justifies (g : Grammar) (input : List Char) (n : Node SymbolKind)
    (ks : List SymbolKind) : Prop :=
  match n.token.kind with
  | .terminal t => ks = [] ∧ n.token.Matched input (g.terminal t).matcher
  | .nonterminal m => ∃ r ∈ g.productions m, ∃ w, r.Denotes w ∧ ks = w.map Symbol.kind
  | .root | .undetermined => False

namespace Interpreter

variable {i : Interpreter}

/-! ### What a run keeps -/

/-- A scanner of a grammar that finds a token of a terminal matches its pattern. -/
theorem matched_of_found {g : Grammar} {input : List Char} {p : Token SymbolKind × Cursor}
    (h : g.scanner.Found input p) {t : TerminalId} (hk : p.1.kind = .terminal t) :
  p.1.Matched input (g.terminal t).matcher
  := by
  obtain h | ⟨q, hq, hqk, hm⟩ := h.matched
  · rw [hk] at h
    cases h
  · obtain ⟨u, _, rfl⟩ := List.mem_map.mp hq
    rw [hk] at hqk
    cases hqk
    apply hm

/-- The scanner of a state stays at a place of its input. -/
def State.Scans (i : Interpreter) (input : List Char) (s : State) : Prop :=
  Scanner.State.Valid i.grammar.scanner input s.scanner

theorem errors_widen {κ : Type} (t : ParseTree κ) (target source : NodeId) :
  (t.widen target source).errors = t.errors
  := by
  rw [ParseTree.widen]
  split <;> rfl

/-- No error is dropped in a run. -/
theorem Runs.errors {ss : List Stmt} {node : NodeId} {s : State} {r : Result}
    (h : Runs i ss node s r) :
  s.tree.errors <+: r.2.tree.errors
  := by
  induction h with
  | done node s => apply List.prefix_rfl
  | expect _ _ ih => apply ih
  | reject _ => apply List.prefix_append
  | skip _ _ ih => apply ih
  | @call _ _ _ s s' _ routine ok _ _ _ ihbody ih =>
    apply List.IsPrefix.trans ihbody
    apply List.IsPrefix.trans _ ih
    cases ok with
    | true => rw [if_pos rfl, State.leave, errors_widen]
    | false => apply List.prefix_rfl
  | take _ _ ih => apply ih
  | pass _ _ ih => apply ih
  | once _ ih => apply ih
  | again _ _ ih => apply ih
  | stop _ _ ih => apply ih
  | select _ _ ih => apply ih
  | noArm _ => apply List.prefix_append

/-! ### Runs without errors -/

/-- The outcome of a run that records no error: it reaches its end, and a forest has grown whose
roots have the kinds of a word that the statements accept. -/
structure Outcome (i : Interpreter) (input : List Char) (ss : List Stmt) (node : NodeId) (s : State)
    (r : Result) : Prop where
  ended : r.1 = true
  scans : r.2.Scans i input
  grown : ∃ w cs, i.program.Accepts ss w ∧
    ParseTree.Growth (i.grammar.Justifies input) s.tree node cs (w.map Symbol.kind) r.2.tree

variable {input : List Char} {ss ss' : List Stmt} {node : NodeId} {s s' : State} {r : Result}

/-- What accepts more has the same outcomes, also before a look ahead. -/
theorem Outcome.imp (h : Outcome i input ss node s' r) (ht : s'.tree = s.tree)
    (hss : ∀ w, i.program.Accepts ss w → i.program.Accepts ss' w) :
  Outcome i input ss' node s r
  := by
  obtain ⟨w, cs, hw, hg⟩ := h.grown
  rw [ht] at hg
  exact ⟨h.ended, h.scans, w, cs, hss w hw, hg⟩

theorem State.Scans.lookAhead (h : s.Scans i input) (ts : List TerminalId) :
  (s.lookAhead i ts).2.Scans i input
  := Scanner.State.Valid.lookAhead h _

/-- Consuming a token of the terminal that is expected grows a leaf. -/
theorem growth_consume (h : s.Scans i input) (hn : node.index < s.tree.size) {t : TerminalId}
    (hk : (s.consume i node t).1.kind = .terminal t) :
  ParseTree.Growth (i.grammar.Justifies input) s.tree node [⟨s.tree.size⟩] [.terminal t]
    (s.consume i node t).2.tree
  := by
  have hm := matched_of_found (Scanner.State.Valid.upcoming h _) hk
  rw [← hk]
  apply ParseTree.growth_addToken i.grammar.kindName hn
  rw [Grammar.Justifies, hk]
  exact ⟨rfl, hm⟩

/-- The children of a nonterminal make up a word of one of its alternatives if its routine accepts
them. -/
theorem Compiled.justifies (hi : i.Compiled) {n : NonterminalId} {routine : Routine}
    (hr : i.program.routine? n = some routine) {w : List Symbol}
    (hw : i.program.Accepts routine.body w) {x : Node SymbolKind}
    (hx : x.token.kind = .nonterminal n) :
  i.grammar.Justifies input x (w.map Symbol.kind)
  := by
  rw [hi.program] at hr
  obtain ⟨hn, rfl⟩ := Grammar.of_routine?_program hr
  rw [Grammar.Justifies, hx]
  obtain ⟨q, hq, hd⟩ := hi.lowers.exists_denotes (hi.wellFormed.inhabited n hn)
    (hi.wellFormed.proper n) (hi.wellFormed.has_of_mem_symbolsAll n) hw
  exact ⟨q, hq, w, hd, rfl⟩

/-- A run that records no error has the outcome of one. -/
theorem Runs.outcome (hi : i.Compiled) (h : Runs i ss node s r) : s.Scans i input →
    node.index < s.tree.size → r.2.tree.errors = [] →
  Outcome i input ss node s r
  := by
  induction h with
  | done node s =>
    intro hs hn _
    exact ⟨rfl, hs, [], [], rfl, .refl _ hn⟩
  | @expect t expected rest node s r hk _ ih =>
    intro hs hn he
    have hg := growth_consume hs hn hk
    have h := ih (Scanner.State.Valid.scan hs _) (Nat.lt_of_lt_of_le hn hg.le) he
    obtain ⟨w, cs, hw, hg'⟩ := h.grown
    refine ⟨h.ended, h.scans, .terminal t :: w, _, ?_, hg.trans hg'⟩
    exact Program.accepts_cons.mpr ⟨[.terminal t], rfl, w, hw, rfl⟩
  | reject _ =>
    intro _ _ he
    simp [State.reject, ParseTree.addError] at he
  | @skip n rest node s r hr _ ih =>
    intro hs hn he
    apply (ih hs hn he).imp rfl
    intro w hw
    refine Program.accepts_cons.mpr ⟨[], ?_, w, hw, rfl⟩
    rw [Program.expression, hr]
    rfl
  | @call n rest node s s' r routine ok hr _ hrest ihbody ih =>
    intro hs hn he
    have hroutine : routine.nonterminal = n := of_decide_eq_true (List.find?_some hr :)
    -- The run after the call drops no error, so the body has recorded none.
    have he' : s'.tree.errors = [] := by
      have h := hrest.errors
      rw [he, List.prefix_nil] at h
      cases ok with
      | true => rwa [if_pos rfl, State.leave, errors_widen] at h
      | false => apply h
    have hlt : (s.enter node routine).1.index < (s.enter node routine).2.tree.size := by
      rw [State.enter]
      dsimp only
      rw [ParseTree.size_create]
      apply Nat.lt_succ_self
    have hbody := ihbody hs hlt he'
    have hok : ok = true := hbody.ended
    obtain ⟨w, cs, hw, hg⟩ := hbody.grown
    have hg' := ParseTree.growth_of_enclosed hn hg
      (fun x hx _ => hi.justifies hr hw (hroutine ▸ hx))
    rw [if_pos hok] at ih
    obtain ⟨hended, hscans, v, ds, hv, hg''⟩ := ih hbody.scans (Nat.lt_of_lt_of_le hn hg'.le) he
    have hg' := hg'.trans hg''
    rw [hroutine] at hg'
    refine ⟨hended, hscans, .nonterminal n :: v, _, ?_, hg'⟩
    refine Program.accepts_cons.mpr ⟨[.nonterminal n], ?_, v, hv, rfl⟩
    rw [Program.expression, hr]
    rfl
  | take hk _ ih =>
    intro hs hn he
    exact (ih (hs.lookAhead _) hn he).imp rfl fun _ => .take
  | pass hk _ ih =>
    intro hs hn he
    exact (ih (hs.lookAhead _) hn he).imp rfl fun _ => .pass
  | once _ ih =>
    intro hs hn he
    apply (ih hs hn he).imp rfl fun _ => .once
  | again hk _ ih =>
    intro hs hn he
    exact (ih (hs.lookAhead _) hn he).imp rfl fun _ => .again
  | stop hk _ ih =>
    intro hs hn he
    exact (ih (hs.lookAhead _) hn he).imp rfl fun _ => .stop
  | select ha _ ih =>
    intro hs hn he
    exact (ih (hs.lookAhead _) hn he).imp rfl fun _ => .select (List.mem_of_find?_eq_some ha)
  | noArm _ =>
    intro _ _ he
    simp [State.reject, ParseTree.addError] at he

end Interpreter

/-! ### Parse trees of derivations -/

/-- A derivation tree of a grammar for an input: below the root is one node, of the nonterminal to
start with, and every other node is right for the kinds of its children.  A walk meets every node
once, in the order in which they were created. -/
structure ParseTree.IsDerivation (t : ParseTree SymbolKind) (g : Grammar) (input : List Char) :
    Prop where
  start : ∃ x c n, t.node? root = some x ∧ x.token.kind = .root ∧ x.children = [c] ∧
    g.start? = some n ∧ (t.node? c).map (·.token.kind) = some (.nonterminal n)
  justified : ∀ id ≠ root, ∀ n, t.node? id = some n → ∃ ks,
    n.children.map (fun c => (t.node? c).map (·.token.kind)) = ks.map some ∧ g.Justifies input n ks
  walked : t.walk.map Prod.snd = (List.range t.size).map NodeId.mk

namespace Interpreter

variable {i : Interpreter}

/-- A run from the start that records no error makes a derivation tree. -/
theorem Runs.isDerivation (hi : i.Compiled) {n : NonterminalId} (hn : i.grammar.start? = some n)
    {text name : String} {r : Result}
    (h : Runs i [.call n] ParseTree.root ⟨.start text name, .single⟩ r)
    (he : r.2.tree.errors = []) :
  r.2.tree.IsDerivation i.grammar text.toList
  := by
  have hstart := Scanner.State.valid_start i.grammar.scanner text name
  obtain ⟨_, _, w, cs, hw, hg⟩ := h.outcome hi hstart Nat.one_pos he
  obtain rfl : w = [.nonterminal n] := by
    have hr := hi.lowers.routine n (hi.wellFormed.start n hn)
    rw [Program.accepts_singleton, Program.expression, if_pos hr] at hw
    apply hw
  obtain ⟨m, x, hm, hx, hcs, hk⟩ := hg.node
  cases hm
  have hsize : (ParseTree.single : ParseTree SymbolKind).size = 1 := rfl
  have hf := hg.forest
  rw [hsize] at hf
  constructor
  · obtain ⟨c, rfl, hc⟩ := List.map_eq_singleton_iff.mp hf.kinds
    exact ⟨x, c, n, hx, hk, hcs, hn, hc⟩
  · rintro ⟨j⟩ hj x hx
    have hj0 : j ≠ 0 := fun h => hj (by rw [h, ParseTree.root])
    obtain ⟨x', ks, e, hx', hp, hf'⟩ :=
      hf.exists_node (Nat.pos_of_ne_zero hj0) (ParseTree.lt_size_of_node? hx)
    rw [ParseTree.node?, hx', Option.some_inj] at hx
    subst hx
    exact ⟨ks, hf'.kinds, hp⟩
  · apply hg.walk

/-- A parse without errors gives a derivation tree: what was compiled is sound. -/
theorem parse?_isDerivation [Engine] {fs : FileSystem} {o : Options} {text file : String}
    (hi : (Compilation.ofText fs o text file).interpreter? = some i) {fuel : Nat}
    {input name : String} {t : ParseTree SymbolKind} (h : i.parse? fuel input name = some t)
    (he : t.errors = []) :
  t.IsDerivation i.grammar input.toList
  := by
  unfold parse? at h
  split at h
  · cases h
    simp [ParseTree.addError] at he
  · next n hn =>
    obtain ⟨r, hr, rfl⟩ := Option.map_eq_some_iff.mp h
    apply (runs_of_exec fuel hr).isDerivation (Compilation.compiled_of_interpreter? hi) hn he

end Interpreter

/-- The compilation of `Start -> 'a' | 'b' Start;`. -/
def Compilation.bThenA : Compilation :=
  .ofText (.bare []) ⟨⟨"."⟩, ⟨"."⟩⟩ "Start -> 'a' | 'b' Start;" ""

/-- A text that the grammar derives has a derivation tree. -/
theorem Interpreter.exists_parse?_bThenA :
  ∃ i t, Compilation.bThenA.interpreter? = some i ∧ i.parse? 30 "bba" "" = some t ∧
    t.errors = [] ∧ t.IsDerivation i.grammar "bba".toList
  := by
  have h : (Compilation.bThenA.interpreter?.bind (·.parse? 30 "bba" "")).any (·.errors.isEmpty) :=
    by decide +kernel
  obtain ⟨t, ht, he⟩ := (Option.any_eq_true _ _).mp h
  obtain ⟨i, hi, ht⟩ := Option.bind_eq_some_iff.mp ht
  have he := List.isEmpty_iff.mp he
  exact ⟨i, t, hi, ht, he, parse?_isDerivation hi ht he⟩

end Descent
