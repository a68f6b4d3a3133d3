import Descent.Proofs.Calls
import Descent.Proofs.Selection
import Descent.Proofs.Soundness

/-!
# Activations of routines

A run is logged by what it does, one thing after the other (`Interpreter.Action`): the action of a
call holds the log of the routine that is called, an activation.  Runs are those that have a log
(`Interpreter.Traces`).

* A log accounts for a run (`Interpreter.Log.Accounts`): it has all calls of the scanner, nodes that
  are made and errors that are recorded, in order.  What single actions account for is put together
  (`Interpreter.Log.Accounts.append`, `Interpreter.Traces.accounts`).
* An activation that returns early records an error of its own and does nothing after it, and one
  that comes to its end records none (`Interpreter.Log.IsOrderly`, `Interpreter.Traces.isOrderly`).
* So there are as many errors as activations that returned early
  (`Interpreter.Traces.length_errors`).
-/

namespace Descent

namespace ParseTree

variable {κ : Type} {t : ParseTree κ}

theorem children_of_node? {id : NodeId} {n : Node κ} (h : t.node? id = some n) :
  t.children id = n.children
  := by rw [children, h]

theorem children_widenTo (t : ParseTree κ) (target id : NodeId) (span : Span) :
  (t.widenTo target span).children id = t.children id
  := by
  by_cases hid : id.index = target.index
  · rw [children, children, node?, getElem?_widenTo, if_pos hid, node?]
    cases t.nodes[id.index]? <;> rfl
  · rw [children, node?_widenTo_of_ne hid, children]

end ParseTree

namespace Interpreter

/-! ### Logs -/

/-- Something that a routine does. -/
inductive Action where
  /-- Looks at the next token. -/
  | lookAhead (expected : List TerminalId)
  /-- Consumes a token, of which a leaf is made. -/
  | consume (leaf : NodeId) (expected : TerminalId) (token : Token SymbolKind)
  /-- Makes a node for a routine, which does something itself and either comes to its end or returns
  early. -/
  | call (routine : Routine) (node : NodeId) (actions : List Action) (ended : Bool)
  /-- Records an error. -/
  | reject (error : Diagnostic)

/-- What a routine does, one thing after the other. -/
abbrev Log := List Action

/-- A routine that was called, what it did in its node, and whether it came to its end. -/
structure Activation where
  routine : Routine
  node : NodeId
  log : Log
  ended : Bool

namespace Action

mutual

/-- An action and all those inside it, in the order in which they begin. -/
def flat : Action → Log
  | lookAhead ts => [lookAhead ts]
  | consume leaf t token => [consume leaf t token]
  | call routine node actions ended => call routine node actions ended :: flatAll actions
  | reject e => [reject e]

/-- Several actions and all those inside them. -/
def flatAll : Log → Log
  | [] => []
  | a :: log => flat a ++ flatAll log

end

/-- The node that an action makes. -/
def node? : Action → Option NodeId
  | consume leaf .. => some leaf
  | call _ node .. => some node
  | lookAhead _ | reject _ => none

/-- The error that an action records. -/
def error? : Action → Option Diagnostic
  | reject e => some e
  | lookAhead _ | consume .. | call .. => none

/-- The call of the scanner that an action is or begins with. -/
def scannerCall? : Action → Option (Scanner.Call SymbolKind)
  | lookAhead ts => some (.lookAhead (ts.map .terminal))
  | consume _ t _ => some (.scan [.terminal t])
  | call routine .. => some (.here (.nonterminal routine.nonterminal))
  | reject _ => none

/-- The activation that an action is. -/
def activation? : Action → Option Activation
  | call routine node actions ended => some ⟨routine, node, actions, ended⟩
  | lookAhead _ | consume .. | reject _ => none

end Action

namespace Log

/-- All actions of a log, also those of the routines that are called. -/
def flat (log : Log) : Log := Action.flatAll log

/-- The nodes that are made right below that of the routine. -/
def children (log : Log) : List NodeId := log.filterMap Action.node?

/-- All nodes that are made. -/
def nodes (log : Log) : List NodeId := log.flat.children

/-- All errors that are recorded. -/
def errors (log : Log) : List Diagnostic := log.flat.filterMap Action.error?

/-- All calls of the scanner. -/
def scannerCalls (log : Log) : List (Scanner.Call SymbolKind) :=
  log.flat.filterMap Action.scannerCall?

/-- All activations. -/
def activations (log : Log) : List Activation := log.flat.filterMap Action.activation?

theorem flat_cons (a : Action) (log : Log) :
  flat (a :: log) = a.flat ++ log.flat
  := rfl

theorem flat_append (log log' : Log) :
  flat (log ++ log') = log.flat ++ log'.flat
  := by
  induction log with
  | nil => rfl
  | cons a log ih => rw [List.cons_append, flat_cons, ih, flat_cons, List.append_assoc]

theorem flat_call (routine : Routine) (node : NodeId) (body : Log) (ended : Bool) :
  flat [.call routine node body ended] = .call routine node body ended :: body.flat
  := List.append_nil _

theorem activations_append (log log' : Log) :
  activations (log ++ log') = log.activations ++ log'.activations
  := by simp only [activations, flat_append, List.filterMap_append]

theorem errors_append (log log' : Log) :
  errors (log ++ log') = log.errors ++ log'.errors
  := by simp only [errors, flat_append, List.filterMap_append]

theorem activations_call (routine : Routine) (node : NodeId) (body : Log) (ended : Bool) :
  activations [.call routine node body ended] = ⟨routine, node, body, ended⟩ :: body.activations
  := by
  rw [activations, flat_call]
  rfl

theorem errors_call (routine : Routine) (node : NodeId) (body : Log) (ended : Bool) :
  errors [.call routine node body ended] = body.errors
  := by
  rw [errors, flat_call]
  rfl

/-- The node of an activation is one of those that are made. -/
theorem node_mem_nodes {log : Log} {x : Activation} (h : x ∈ log.activations) :
  x.node ∈ log.nodes
  := by
  obtain ⟨a, ha, hx⟩ := List.mem_filterMap.mp h
  apply List.mem_filterMap.mpr ⟨a, ha, _⟩
  cases a with
  | call =>
    obtain rfl := Option.some_inj.mp hx
    rfl
  | _ => cases hx

/-- The leaf of a token that is consumed is one of the nodes that are made. -/
theorem leaf_mem_nodes {log : Log} {leaf : NodeId} {t : TerminalId} {token : Token SymbolKind}
    (h : .consume leaf t token ∈ log.flat) :
  leaf ∈ log.nodes
  := List.mem_filterMap.mpr ⟨_, h, rfl⟩

end Log

/-! ### Runs with a log -/

variable {i : Interpreter}

/-- Running statements in a node, from a state to a result, with a log of what is done. -/
inductive Traces (i : Interpreter) : List Stmt → NodeId → State → Result → Log → Prop
  | done (node : NodeId) (s : State) : Traces i [] node s (true, s) []
  | expect {t : TerminalId} {expected : String} {rest : List Stmt} {node : NodeId} {s : State}
      {r : Result} {log : Log} (hk : (s.consume i node t).1.kind = .terminal t)
      (h : Traces i rest node (s.consume i node t).2 r log) :
      Traces i (.expect t expected :: rest) node s r
        ([.consume ⟨s.tree.size⟩ t (s.consume i node t).1] ++ log)
  | reject {t : TerminalId} {expected : String} {rest : List Stmt} {node : NodeId} {s : State}
      (hk : (s.consume i node t).1.kind ≠ .terminal t) :
      Traces i (.expect t expected :: rest) node s
        (false, (s.consume i node t).2.reject Diagnostic.unexpectedToken (s.consume i node t).1
          expected)
        ([.consume ⟨s.tree.size⟩ t (s.consume i node t).1] ++
          [.reject (.unexpected Diagnostic.unexpectedToken (s.consume i node t).1.toLexeme
            expected)])
  | skip {n : NonterminalId} {rest : List Stmt} {node : NodeId} {s : State} {r : Result}
      {log : Log} (hn : i.program.routine? n = none) (h : Traces i rest node s r log) :
      Traces i (.call n :: rest) node s r log
  | call {n : NonterminalId} {rest : List Stmt} {node : NodeId} {s s' : State} {r : Result}
      {routine : Routine} {ok : Bool} {body log : Log} (hn : i.program.routine? n = some routine)
      (hbody : Traces i routine.body (s.enter node routine).1 (s.enter node routine).2 (ok, s')
        body)
      (h : Traces i rest node (if ok then s'.leave node (s.enter node routine).1 else s') r log) :
      Traces i (.call n :: rest) node s r
        ([.call routine (s.enter node routine).1 body ok] ++ log)
  | take {ts : List TerminalId} {body rest : List Stmt} {node : NodeId} {s : State} {r : Result}
      {log : Log} (hk : isOneOf (s.lookAhead i ts).1 ts)
      (h : Traces i (body ++ rest) node (s.lookAhead i ts).2 r log) :
      Traces i (.optional ts body :: rest) node s r ([.lookAhead ts] ++ log)
  | pass {ts : List TerminalId} {body rest : List Stmt} {node : NodeId} {s : State} {r : Result}
      {log : Log} (hk : ¬ isOneOf (s.lookAhead i ts).1 ts)
      (h : Traces i rest node (s.lookAhead i ts).2 r log) :
      Traces i (.optional ts body :: rest) node s r ([.lookAhead ts] ++ log)
  | once {ts : List TerminalId} {body rest : List Stmt} {node : NodeId} {s : State} {r : Result}
      {log : Log} (h : Traces i (body ++ .loop ts body false :: rest) node s r log) :
      Traces i (.loop ts body true :: rest) node s r log
  | again {ts : List TerminalId} {body rest : List Stmt} {node : NodeId} {s : State} {r : Result}
      {log : Log} (hk : isOneOf (s.lookAhead i ts).1 ts)
      (h : Traces i (body ++ .loop ts body false :: rest) node (s.lookAhead i ts).2 r log) :
      Traces i (.loop ts body false :: rest) node s r ([.lookAhead ts] ++ log)
  | stop {ts : List TerminalId} {body rest : List Stmt} {node : NodeId} {s : State} {r : Result}
      {log : Log} (hk : ¬ isOneOf (s.lookAhead i ts).1 ts)
      (h : Traces i rest node (s.lookAhead i ts).2 r log) :
      Traces i (.loop ts body false :: rest) node s r ([.lookAhead ts] ++ log)
  | select {ts : List TerminalId} {arms : List Arm} {expected : String} {rest : List Stmt}
      {node : NodeId} {s : State} {r : Result} {log : Log} {a : Arm}
      (ha : arms.find? (fun a => isOneOf (s.lookAhead i ts).1 a.terminals) = some a)
      (h : Traces i (a.body ++ rest) node (s.lookAhead i ts).2 r log) :
      Traces i (.dispatch ts arms expected :: rest) node s r ([.lookAhead ts] ++ log)
  | noArm {ts : List TerminalId} {arms : List Arm} {expected : String} {rest : List Stmt}
      {node : NodeId} {s : State}
      (ha : arms.find? (fun a => isOneOf (s.lookAhead i ts).1 a.terminals) = none) :
      Traces i (.dispatch ts arms expected :: rest) node s
        (false, (s.lookAhead i ts).2.reject Diagnostic.noAlternative (s.lookAhead i ts).1
          (expected ++ "."))
        ([.lookAhead ts] ++ [.reject (.unexpected Diagnostic.noAlternative
          (s.lookAhead i ts).1.toLexeme (expected ++ "."))])

variable {ss : List Stmt} {node : NodeId} {s s' t : State} {r : Result} {log log' : Log}

theorem Traces.runs (h : Traces i ss node s r log) :
  Runs i ss node s r
  := by
  induction h with
  | done node s => exact .done node s
  | expect hk _ ih => exact .expect hk ih
  | reject hk => exact .reject hk
  | skip hn _ ih => exact .skip hn ih
  | call hn _ _ ihbody ih => exact .call hn ihbody ih
  | take hk _ ih => exact .take hk ih
  | pass hk _ ih => exact .pass hk ih
  | once _ ih => exact .once ih
  | again hk _ ih => exact .again hk ih
  | stop hk _ ih => exact .stop hk ih
  | select ha _ ih => exact .select ha ih
  | noArm ha => exact .noArm ha

/-- Every run has a log. -/
theorem Runs.exists_traces (h : Runs i ss node s r) :
  ∃ log, Traces i ss node s r log
  := by
  induction h with
  | done node s => exact ⟨_, .done node s⟩
  | expect hk _ ih =>
    obtain ⟨log, ih⟩ := ih
    exact ⟨_, .expect hk ih⟩
  | reject hk => exact ⟨_, .reject hk⟩
  | skip hn _ ih =>
    obtain ⟨log, ih⟩ := ih
    exact ⟨log, .skip hn ih⟩
  | call hn _ _ ihbody ih =>
    obtain ⟨body, ihbody⟩ := ihbody
    obtain ⟨log, ih⟩ := ih
    exact ⟨_, .call hn ihbody ih⟩
  | take hk _ ih =>
    obtain ⟨log, ih⟩ := ih
    exact ⟨_, .take hk ih⟩
  | pass hk _ ih =>
    obtain ⟨log, ih⟩ := ih
    exact ⟨_, .pass hk ih⟩
  | once _ ih =>
    obtain ⟨log, ih⟩ := ih
    exact ⟨log, .once ih⟩
  | again hk _ ih =>
    obtain ⟨log, ih⟩ := ih
    exact ⟨_, .again hk ih⟩
  | stop hk _ ih =>
    obtain ⟨log, ih⟩ := ih
    exact ⟨_, .stop hk ih⟩
  | select ha _ ih =>
    obtain ⟨log, ih⟩ := ih
    exact ⟨_, .select ha ih⟩
  | noArm ha => exact ⟨_, .noArm ha⟩

/-! ### What a log accounts for -/

/-- The nodes that a tree has beyond those of another one. -/
def newNodes (t t' : ParseTree SymbolKind) : List NodeId :=
  (List.range' t.size (t'.size - t.size)).map NodeId.mk

theorem mem_newNodes {t t' : ParseTree SymbolKind} {id : NodeId} :
  id ∈ newNodes t t' ↔ t.size ≤ id.index ∧ id.index < t'.size
  := by
  obtain ⟨j⟩ := id
  simp only [newNodes, List.mem_map, List.mem_range'_1, NodeId.mk.injEq, exists_eq_right]
  omega

theorem newNodes_append {t t' t'' : ParseTree SymbolKind} (h : t.size ≤ t'.size)
    (h' : t'.size ≤ t''.size) :
  newNodes t t' ++ newNodes t' t'' = newNodes t t''
  := by
  have hsize : t'.size = t.size + (t'.size - t.size) := by omega
  have hdiff : t''.size - t.size = (t'.size - t.size) + (t''.size - t'.size) := by omega
  rw [newNodes, newNodes, newNodes, ← List.map_append, hdiff, ← List.range'_append_1, ← hsize]

/-- A log accounts for what happens in a node from one state to another. -/
structure Log.Accounts (log : Log) (i : Interpreter) (node : NodeId) (s t : State) : Prop where
  /-- The scanner is called, and nothing else is done with it. -/
  scanner : t.scanner = i.grammar.scanner.after s.scanner log.scannerCalls
  errors : t.tree.errors = s.tree.errors ++ log.errors
  nodes : log.nodes = newNodes s.tree t.tree
  /-- Nodes from before stay as they are, but for the one in which things happen. -/
  grown : ∃ ks, ParseTree.Growth (fun _ _ => True) s.tree node log.children ks t.tree
  /-- The children of an activation are the nodes that it makes itself. -/
  children : ∀ x ∈ log.activations, t.tree.children x.node = x.log.children
  leaves : ∀ leaf u token, .consume leaf u token ∈ log.flat →
    (t.tree.node? leaf).map (·.token) = some token

theorem Log.Accounts.size_le (h : log.Accounts i node s t) :
  s.tree.size ≤ t.tree.size
  := by
  obtain ⟨ks, hg⟩ := h.grown
  apply hg.le

theorem Log.Accounts.node_lt (h : log.Accounts i node s t) :
  node.index < s.tree.size
  := by
  obtain ⟨ks, hg⟩ := h.grown
  apply hg.lt_size

theorem Log.Accounts.lt_size (h : log.Accounts i node s t) :
  node.index < t.tree.size
  := Nat.lt_of_lt_of_le h.node_lt h.size_le

/-- Nodes that are made in a node stay as they are while more happens there. -/
theorem Log.Accounts.node?_of_mem (h : log.Accounts i node s s') (h' : log'.Accounts i node s' t)
    {id : NodeId} (hid : id ∈ log.nodes) :
  t.tree.node? id = s'.tree.node? id
  := by
  rw [h.nodes, mem_newNodes] at hid
  have hne : id.index ≠ node.index := (Nat.lt_of_lt_of_le h.node_lt hid.1).ne'
  obtain ⟨ks, hg⟩ := h'.grown
  apply hg.old id.index hid.2 hne

theorem Log.accounts_nil (hn : node.index < s.tree.size) :
  Log.Accounts [] i node s s
  := by
  constructor
  case scanner => rfl
  case errors => exact (List.append_nil s.tree.errors).symm
  case nodes =>
    rw [newNodes, Nat.sub_self]
    rfl
  case grown => exact ⟨[], .refl _ hn⟩
  case children => exact List.forall_mem_nil _
  case leaves =>
    intro leaf u token h
    cases h

/-- One log after the other. -/
theorem Log.Accounts.append (h : log.Accounts i node s s') (h' : log'.Accounts i node s' t) :
  (log ++ log').Accounts i node s t
  := by
  constructor
  case scanner =>
    rw [h'.scanner, h.scanner, ← Scanner.after_append, scannerCalls, scannerCalls, scannerCalls,
      flat_append, List.filterMap_append]
  case errors => rw [h'.errors, h.errors, errors_append, List.append_assoc]
  case nodes =>
    have happend : Log.nodes (log ++ log') = log.nodes ++ log'.nodes := by
      simp only [Log.nodes, Log.children, flat_append, List.filterMap_append]
    rw [happend, h.nodes, h'.nodes, newNodes_append h.size_le h'.size_le]
  case grown =>
    obtain ⟨ks, hg⟩ := h.grown
    obtain ⟨ls, hg'⟩ := h'.grown
    have hchildren : Log.children (log ++ log') = log.children ++ log'.children :=
      List.filterMap_append
    rw [hchildren]
    exact ⟨ks ++ ls, hg.trans hg'⟩
  case children =>
    intro x hx
    rw [activations_append] at hx
    obtain hx | hx := List.mem_append.mp hx
    · rw [← h.children x hx, ParseTree.children, h.node?_of_mem h' (node_mem_nodes hx)]
      rfl
    · apply h'.children x hx
  case leaves =>
    intro leaf u token hleaf
    rw [flat_append] at hleaf
    obtain hleaf | hleaf := List.mem_append.mp hleaf
    · rw [h.node?_of_mem h' (leaf_mem_nodes hleaf)]
      apply h.leaves leaf u token hleaf
    · apply h'.leaves leaf u token hleaf

/-! ### Single actions -/

theorem accounts_lookAhead (hn : node.index < s.tree.size) (ts : List TerminalId) :
  Log.Accounts [.lookAhead ts] i node s (s.lookAhead i ts).2
  := by
  have h : Log.Accounts [] i node s s := Log.accounts_nil hn
  constructor
  case scanner => rfl
  case errors => apply h.errors
  case nodes => apply h.nodes
  case grown => apply h.grown
  case children => exact List.forall_mem_nil _
  case leaves =>
    intro leaf u token hleaf
    cases List.mem_singleton.mp hleaf

theorem accounts_reject (hn : node.index < s.tree.size) (code : Nat) (token : Token SymbolKind)
    (expected : String) :
  Log.Accounts [.reject (.unexpected code token.toLexeme expected)] i node s
    (s.reject code token expected)
  := by
  have h : Log.Accounts [] i node s s := Log.accounts_nil hn
  constructor
  case scanner => rfl
  case errors => rfl
  case nodes => apply h.nodes
  case grown =>
    obtain ⟨ks, hold, hnode, hforest⟩ := h.grown
    exact ⟨ks, hold, hnode, hforest.congr fun _ _ _ => rfl⟩
  case children => exact List.forall_mem_nil _
  case leaves =>
    intro leaf u token hleaf
    cases List.mem_singleton.mp hleaf

theorem accounts_consume (hn : node.index < s.tree.size) (u : TerminalId) :
  Log.Accounts [.consume ⟨s.tree.size⟩ u (s.consume i node u).1] i node s (s.consume i node u).2
  := by
  have htree : (s.consume i node u).2.tree =
      (s.tree.addToken i.grammar.kindName node (s.consume i node u).1).2 := rfl
  constructor
  case scanner => rfl
  case errors => exact (List.append_nil s.tree.errors).symm
  case nodes =>
    rw [newNodes, htree, ParseTree.size_addToken, Nat.add_sub_cancel_left]
    rfl
  case grown =>
    rw [htree]
    exact ⟨_, ParseTree.growth_addToken _ hn trivial⟩
  case children => exact List.forall_mem_nil _
  case leaves =>
    intro leaf v token hleaf
    cases List.mem_singleton.mp hleaf
    rw [htree, ParseTree.node?_addToken _ hn]
    rfl

/-- Covering the node of a routine that came to its end keeps what is accounted for. -/
theorem Log.Accounts.leave (h : log.Accounts i node s t) (child : NodeId) :
  log.Accounts i node s (t.leave node child)
  := by
  rw [State.leave, ParseTree.widen]
  cases hchild : t.tree.node? child with
  | none => exact h
  | some n =>
    constructor
    case scanner => apply h.scanner
    case errors => apply h.errors
    case nodes =>
      rw [h.nodes, newNodes, newNodes]
      dsimp only
      rw [ParseTree.size_widenTo]
    case grown =>
      obtain ⟨ks, hg⟩ := h.grown
      exact ⟨ks, hg.widenTo n.token.span⟩
    case children =>
      intro x hx
      dsimp only
      rw [ParseTree.children_widenTo]
      apply h.children x hx
    case leaves =>
      intro leaf u token hleaf
      have hnew := leaf_mem_nodes hleaf
      rw [h.nodes, mem_newNodes] at hnew
      have hne : leaf.index ≠ node.index := (Nat.lt_of_lt_of_le h.node_lt hnew.1).ne'
      dsimp only
      rw [ParseTree.node?_widenTo_of_ne hne]
      apply h.leaves leaf u token hleaf

/-- A call accounts for what happens from entering the node of the routine on. -/
theorem Log.Accounts.call {routine : Routine} {body : Log} (hn : node.index < s.tree.size)
    (h : body.Accounts i (s.enter node routine).1 (s.enter node routine).2 t) (ended : Bool) :
  Log.Accounts [.call routine (s.enter node routine).1 body ended] i node s t
  := by
  have htree : (s.enter node routine).2.tree = (s.tree.create node
      (s.scanner.here (.nonterminal routine.nonterminal)) routine.name).2 := rfl
  have hsize : (s.enter node routine).2.tree.size = s.tree.size + 1 := by
    rw [htree, ParseTree.size_create]
  have hle := h.size_le
  obtain ⟨ks, hg⟩ := h.grown
  constructor
  case scanner =>
    rw [h.scanner, scannerCalls, scannerCalls, flat_call]
    rfl
  case errors =>
    rw [h.errors, errors_call]
    rfl
  case nodes =>
    have hnodes : Log.nodes [.call routine (s.enter node routine).1 body ended] =
        newNodes s.tree (s.enter node routine).2.tree ++ body.nodes := by
      rw [newNodes, hsize, Nat.add_sub_cancel_left, Log.nodes, flat_call]
      rfl
    rw [hnodes, h.nodes, newNodes_append (by omega) hle]
  case grown =>
    rw [htree] at hg
    exact ⟨_, ParseTree.growth_of_nested hn hg fun _ _ _ => trivial⟩
  case children =>
    rw [activations_call]
    apply List.forall_mem_cons.mpr ⟨?_, h.children⟩
    rw [hg.children]
    have hnew : (s.enter node routine).2.tree.children (s.enter node routine).1 = [] := by
      rw [htree]
      apply ParseTree.children_of_node? (ParseTree.node?_create s.tree node _ _)
    rw [hnew, List.nil_append]
  case leaves =>
    intro leaf u token hleaf
    rw [flat_call] at hleaf
    cases hleaf with
    | tail _ hleaf => apply h.leaves leaf u token hleaf

/-! ### Runs -/

/-- The log of a run accounts for it. -/
theorem Traces.accounts (h : Traces i ss node s r log) : node.index < s.tree.size →
  log.Accounts i node s r.2
  := by
  induction h with
  | done node s =>
    intro hn
    apply Log.accounts_nil hn
  | @expect u _ _ node s _ _ _ _ ih =>
    intro hn
    have hconsume : Log.Accounts _ i node s _ := accounts_consume hn u
    apply hconsume.append (ih hconsume.lt_size)
  | @reject u _ _ node s _ =>
    intro hn
    have hconsume : Log.Accounts _ i node s _ := accounts_consume hn u
    apply hconsume.append (accounts_reject hconsume.lt_size _ _ _)
  | skip _ _ ih => apply ih
  | @call _ _ node s s' _ routine ok body _ _ _ _ ihbody ih =>
    intro hn
    have hlt : (s.enter node routine).1.index < (s.enter node routine).2.tree.size := by
      rw [State.enter]
      dsimp only
      rw [ParseTree.size_create]
      apply Nat.lt_succ_self
    have hcall := (ihbody hlt).call hn ok
    cases ok with
    | true =>
      have hleave := hcall.leave (s.enter node routine).1
      apply hleave.append (ih hleave.lt_size)
    | false => apply hcall.append (ih hcall.lt_size)
  | once _ ih => apply ih
  | take _ _ ih | pass _ _ ih | again _ _ ih | stop _ _ ih | select _ _ ih =>
    intro hn
    apply (accounts_lookAhead hn _).append (ih hn)
  | @noArm ts _ _ _ node s _ =>
    intro hn
    have hlook : Log.Accounts _ i node s _ := accounts_lookAhead hn ts
    apply hlook.append (accounts_reject hlook.lt_size _ _ _)

/-! ### Errors -/

/-- A routine that comes to its end records no error itself, and one that returns early records one.
After an error nothing is done, and after a token that is not the one to be consumed an error is
recorded. -/
structure Log.IsOrderly (log : Log) (ended : Bool) : Prop where
  length_errors : (log.filterMap Action.error?).length = if ended then 0 else 1
  after_error : ∀ before e after, log = before ++ .reject e :: after → after = []
  after_consume : ∀ before leaf u token after, log = before ++ .consume leaf u token :: after →
    token.kind ≠ .terminal u → ∃ e, after = [.reject e]

theorem isOrderly_nil :
  Log.IsOrderly [] true
  := by
  constructor
  case length_errors => rfl
  case after_error => simp
  case after_consume => simp

theorem isOrderly_reject (e : Diagnostic) :
  Log.IsOrderly [.reject e] false
  := by
  constructor
  case length_errors => rfl
  case after_error =>
    intro before e' after h
    obtain ⟨-, h⟩ | ⟨_, -, h⟩ := List.cons_eq_append_iff.mp h
    · exact (List.cons.inj h).2
    · simp at h
  case after_consume =>
    intro before leaf u token after h
    obtain ⟨-, h⟩ | ⟨_, -, h⟩ := List.cons_eq_append_iff.mp h
    · cases h
    · simp at h

/-- An action that records no error comes first; if it consumes a token that is not the one to be
consumed, an error is recorded right after it. -/
theorem Log.IsOrderly.cons {ended : Bool} (h : log.IsOrderly ended) {a : Action}
    (herror : a.error? = none)
    (hconsume : ∀ leaf u token, a = .consume leaf u token → token.kind ≠ .terminal u →
      ∃ e, log = [.reject e]) :
  Log.IsOrderly ([a] ++ log) ended
  := by
  constructor
  case length_errors =>
    rw [← h.length_errors, List.singleton_append, List.filterMap_cons_none herror]
  case after_error =>
    intro before e after heq
    obtain ⟨-, heq⟩ | ⟨_, -, heq⟩ := List.cons_eq_append_iff.mp heq
    · cases heq
      cases herror
    · apply h.after_error _ _ _ heq
  case after_consume =>
    intro before leaf u token after heq hk
    obtain ⟨-, heq⟩ | ⟨_, -, heq⟩ := List.cons_eq_append_iff.mp heq
    · obtain ⟨rfl, rfl⟩ := List.cons.inj heq
      apply hconsume leaf u token rfl hk
    · apply h.after_consume _ _ _ _ _ heq hk

theorem Log.IsOrderly.lookAhead {ended : Bool} (h : log.IsOrderly ended) (ts : List TerminalId) :
  Log.IsOrderly ([.lookAhead ts] ++ log) ended
  := by
  apply h.cons rfl
  rintro leaf u token ⟨⟩

/-- Routines are orderly: the one that runs, and those that are called. -/
theorem Traces.isOrderly (h : Traces i ss node s r log) :
  log.IsOrderly r.1 ∧ ∀ x ∈ log.activations, x.log.IsOrderly x.ended
  := by
  induction h with
  | done node s => exact ⟨isOrderly_nil, List.forall_mem_nil _⟩
  | expect hk _ ih =>
    refine ⟨ih.1.cons rfl ?_, ih.2⟩
    rintro leaf u token ⟨⟩ hne
    exact absurd hk hne
  | reject _ =>
    refine ⟨(isOrderly_reject _).cons rfl ?_, List.forall_mem_nil _⟩
    rintro leaf u token ⟨⟩ _
    exact ⟨_, rfl⟩
  | skip _ _ ih => apply ih
  | call _ _ _ ihbody ih =>
    refine ⟨ih.1.cons rfl ?_, ?_⟩
    · rintro leaf u token ⟨⟩
    · rw [Log.activations_append, Log.activations_call]
      apply List.forall_mem_append.mpr ⟨List.forall_mem_cons.mpr ihbody, ih.2⟩
  | once _ ih => apply ih
  | take _ _ ih | pass _ _ ih | again _ _ ih | stop _ _ ih | select _ _ ih =>
    exact ⟨ih.1.lookAhead _, ih.2⟩
  | noArm _ => exact ⟨(isOrderly_reject _).lookAhead _, List.forall_mem_nil _⟩

/-- There are as many errors as activations that returned early, and one more if the statements
themselves did. -/
theorem Traces.length_errors (h : Traces i ss node s r log) :
  log.errors.length = log.activations.countP (!·.ended) + if r.1 then 0 else 1
  := by
  induction h with
  | done node s => rfl
  | expect _ _ ih => apply ih
  | reject _ => rfl
  | skip _ _ ih => apply ih
  | @call _ _ _ _ _ _ _ ok _ _ _ _ _ ihbody ih =>
    rw [Log.errors_append, Log.errors_call, List.length_append, ihbody, ih, Log.activations_append,
      Log.activations_call, List.countP_append, List.countP_cons]
    cases ok <;> simp <;> omega
  | once _ ih => apply ih
  | take _ _ ih | pass _ _ ih | again _ _ ih | stop _ _ ih | select _ _ ih => apply ih
  | noArm _ => rfl

/-- The leaf of a token that is not the one to be consumed is the last node that its routine makes
itself. -/
theorem Log.IsOrderly.getLast?_children {ended : Bool} (h : log.IsOrderly ended) {leaf : NodeId}
    {u : TerminalId} {token : Token SymbolKind} (hleaf : .consume leaf u token ∈ log)
    (hk : token.kind ≠ .terminal u) :
  log.children.getLast? = some leaf
  := by
  obtain ⟨before, after, heq⟩ := List.append_of_mem hleaf
  obtain ⟨e, rfl⟩ := h.after_consume before leaf u token after heq hk
  have hchildren : log.children = before.filterMap Action.node? ++ [leaf] := by
    rw [heq, Log.children, List.filterMap_append]
    rfl
  rw [hchildren, List.getLast?_concat]

/-- A parse for which the fuel suffices has a log, which accounts for it.  There are as many errors
as activations of routines that returned early, and none if all came to their end.  An activation
does nothing after an error of its own, of which it has one at most, and the leaf of a token that is
not the one to be consumed is the last child of the node of its activation. -/
theorem parse?_errors {start : NonterminalId} (hstart : i.grammar.start? = some start) {fuel : Nat}
    {text file : String} {tree : ParseTree SymbolKind} (h : i.parse? fuel text file = some tree) :
  let begin : State := ⟨.start text file, .single⟩
  ∃ last : State, last.tree = tree ∧
    (∃ log, Traces i [.call start] ParseTree.root begin (true, last) log) ∧
    ∀ r log, Traces i [.call start] ParseTree.root begin r log →
      r = (true, last) ∧ log.Accounts i ParseTree.root begin last ∧
      tree.errors.length = log.activations.countP (!·.ended) ∧
      (tree.errors = [] ↔ ∀ x ∈ log.activations, x.ended) ∧
      ∀ x ∈ log.activations, x.log.IsOrderly x.ended ∧
        ∀ leaf u token, .consume leaf u token ∈ x.log → token.kind ≠ .terminal u →
          (tree.children x.node).getLast? = some leaf
  := by
  intro begin
  rw [parse?, hstart] at h
  obtain ⟨⟨ok, last⟩, hr, rfl⟩ := Option.map_eq_some_iff.mp h
  have hruns := runs_of_exec fuel hr
  obtain rfl : ok = true := by
    cases hruns with
    | skip _ h =>
      cases h
      rfl
    | call _ _ h =>
      cases h
      rfl
  refine ⟨last, rfl, hruns.exists_traces, ?_⟩
  intro r log hlog
  obtain rfl : r = (true, last) := hlog.runs.unique hruns
  have haccounts := hlog.accounts Nat.one_pos
  have herrors : last.tree.errors = log.errors := haccounts.errors
  have hlength : last.tree.errors.length = log.activations.countP (!·.ended) := by
    rw [herrors, hlog.length_errors]
    rfl
  refine ⟨rfl, haccounts, hlength, ?_, ?_⟩
  · rw [← List.length_eq_zero_iff, hlength, List.countP_eq_zero]
    simp
  · intro x hx
    have horderly := hlog.isOrderly.2 x hx
    refine ⟨horderly, ?_⟩
    intro leaf u token hleaf hk
    rw [haccounts.children x hx]
    apply horderly.getLast?_children hleaf hk

/-- In `Start -> A 'c'; A -> 'a' 'b';` a routine returns early from a text in which one terminal
stands for another, and its caller goes on. -/
theorem parse?_errors_acc :
  ∃ i start tree, (Compilation.ofText (.bare []) ⟨⟨"."⟩, ⟨"."⟩⟩
        "Start -> A 'c'; A -> 'a' 'b';" "").interpreter? = some i ∧
    i.grammar.start? = some start ∧ i.parse? 30 "acc" "" = some tree ∧ tree.errors.length = 1 ∧
    ∃ log : Log, log.activations.countP (!·.ended) = 1 ∧
      ∀ x ∈ log.activations, x.log.IsOrderly x.ended
  := by
  have h : ((Compilation.ofText (.bare []) ⟨⟨"."⟩, ⟨"."⟩⟩
      "Start -> A 'c'; A -> 'a' 'b';" "").interpreter?.bind fun i =>
        i.grammar.start?.bind fun _ => i.parse? 30 "acc" "").any (·.errors.length = 1) := by
    decide +kernel
  obtain ⟨tree, htree, hlength⟩ := (Option.any_eq_true _ _).mp h
  obtain ⟨i, hi, htree⟩ := Option.bind_eq_some_iff.mp htree
  obtain ⟨start, hstart, htree⟩ := Option.bind_eq_some_iff.mp htree
  have hlength := of_decide_eq_true hlength
  obtain ⟨last, -, ⟨log, hlog⟩, hlogs⟩ := parse?_errors hstart htree
  obtain ⟨-, -, hcount, -, hall⟩ := hlogs _ log hlog
  exact ⟨i, start, tree, hi, hstart, htree, hlength, log, hcount.symm.trans hlength,
    fun x hx => (hall x hx).1⟩

end Interpreter

end Descent
