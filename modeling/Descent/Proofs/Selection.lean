import Descent.Proofs.Leaves

/-!
# Statements that a token selects

A token that was seen ahead waits until it is consumed.  While it waits, statements may come to the
place where it is expected (`Interpreter.Takes`), or run up to their end without it
(`Interpreter.Passes`); in both cases nothing is scanned and no error is recorded before.
Statements that are put together from others do so depending on whether the token selects their
bodies.
-/

namespace Descent

namespace Interpreter

variable {i : Interpreter} {t : TerminalId} {ts : List TerminalId} {node place : NodeId}
  {s s' there : State} {ss a b body rest : List Stmt}

/-! ### Coming to a place -/

/-- Running statements comes to a place where a terminal is expected, in a node and a state. -/
inductive ComesTo (i : Interpreter) (t : TerminalId) (place : NodeId) (there : State) :
    List Stmt → NodeId → State → Prop
  | here {expected : String} {rest : List Stmt} :
      ComesTo i t place there (.expect t expected :: rest) place there
  | expect {u : TerminalId} {expected : String} {rest : List Stmt} {node : NodeId} {s : State}
      (hk : (s.consume i node u).1.kind = .terminal u)
      (h : ComesTo i t place there rest node (s.consume i node u).2) :
      ComesTo i t place there (.expect u expected :: rest) node s
  | skip {n : NonterminalId} {rest : List Stmt} {node : NodeId} {s : State}
      (hn : i.program.routine? n = none) (h : ComesTo i t place there rest node s) :
      ComesTo i t place there (.call n :: rest) node s
  | enter {n : NonterminalId} {rest : List Stmt} {node : NodeId} {s : State} {routine : Routine}
      (hn : i.program.routine? n = some routine)
      (h : ComesTo i t place there routine.body (s.enter node routine).1
        (s.enter node routine).2) :
      ComesTo i t place there (.call n :: rest) node s
  | leave {n : NonterminalId} {rest : List Stmt} {node : NodeId} {s s' : State}
      {routine : Routine} {ok : Bool} (hn : i.program.routine? n = some routine)
      (hbody : Runs i routine.body (s.enter node routine).1 (s.enter node routine).2 (ok, s'))
      (h : ComesTo i t place there rest node
        (if ok then s'.leave node (s.enter node routine).1 else s')) :
      ComesTo i t place there (.call n :: rest) node s
  | take {ts : List TerminalId} {body rest : List Stmt} {node : NodeId} {s : State}
      (hk : isOneOf (s.lookAhead i ts).1 ts)
      (h : ComesTo i t place there (body ++ rest) node (s.lookAhead i ts).2) :
      ComesTo i t place there (.optional ts body :: rest) node s
  | pass {ts : List TerminalId} {body rest : List Stmt} {node : NodeId} {s : State}
      (hk : ¬ isOneOf (s.lookAhead i ts).1 ts)
      (h : ComesTo i t place there rest node (s.lookAhead i ts).2) :
      ComesTo i t place there (.optional ts body :: rest) node s
  | once {ts : List TerminalId} {body rest : List Stmt} {node : NodeId} {s : State}
      (h : ComesTo i t place there (body ++ .loop ts body false :: rest) node s) :
      ComesTo i t place there (.loop ts body true :: rest) node s
  | again {ts : List TerminalId} {body rest : List Stmt} {node : NodeId} {s : State}
      (hk : isOneOf (s.lookAhead i ts).1 ts)
      (h : ComesTo i t place there (body ++ .loop ts body false :: rest) node
        (s.lookAhead i ts).2) :
      ComesTo i t place there (.loop ts body false :: rest) node s
  | stop {ts : List TerminalId} {body rest : List Stmt} {node : NodeId} {s : State}
      (hk : ¬ isOneOf (s.lookAhead i ts).1 ts)
      (h : ComesTo i t place there rest node (s.lookAhead i ts).2) :
      ComesTo i t place there (.loop ts body false :: rest) node s
  | select {ts : List TerminalId} {arms : List Arm} {expected : String} {rest : List Stmt}
      {node : NodeId} {s : State} {a : Arm}
      (ha : arms.find? (fun a => isOneOf (s.lookAhead i ts).1 a.terminals) = some a)
      (h : ComesTo i t place there (a.body ++ rest) node (s.lookAhead i ts).2) :
      ComesTo i t place there (.dispatch ts arms expected :: rest) node s

/-- What comes after statements does not change where they come to. -/
theorem ComesTo.append (h : ComesTo i t place there ss node s) (rest : List Stmt) :
  ComesTo i t place there (ss ++ rest) node s
  := by
  induction h with
  | here => exact .here
  | expect hk _ ih => exact .expect hk ih
  | skip hn _ ih => exact .skip hn ih
  | enter hn h _ => exact .enter hn h
  | leave hn hbody _ ih => exact .leave hn hbody ih
  | take hk _ ih =>
    rw [List.append_assoc] at ih
    exact .take hk ih
  | pass hk _ ih => exact .pass hk ih
  | once _ ih =>
    rw [List.append_assoc] at ih
    exact .once ih
  | again hk _ ih =>
    rw [List.append_assoc] at ih
    exact .again hk ih
  | stop hk _ ih => exact .stop hk ih
  | select ha _ ih =>
    rw [List.append_assoc] at ih
    exact .select ha ih

/-- Statements that run up to their end come to where those after them come to. -/
theorem Runs.comesTo {r : Result} (h : Runs i a node s r) (hr : r.1 = true)
    (hb : ComesTo i t place there b node r.2) :
  ComesTo i t place there (a ++ b) node s
  := by
  induction h with
  | done node s => apply hb
  | expect hk _ ih => exact .expect hk (ih hr hb)
  | reject => cases hr
  | skip hn _ ih => exact .skip hn (ih hr hb)
  | call hn hbody _ _ ih => exact .leave hn hbody (ih hr hb)
  | take hk _ ih =>
    have ih := ih hr hb
    rw [List.append_assoc] at ih
    exact .take hk ih
  | pass hk _ ih => exact .pass hk (ih hr hb)
  | once _ ih =>
    have ih := ih hr hb
    rw [List.append_assoc] at ih
    exact .once ih
  | again hk _ ih =>
    have ih := ih hr hb
    rw [List.append_assoc] at ih
    exact .again hk ih
  | stop hk _ ih => exact .stop hk (ih hr hb)
  | select ha _ ih =>
    have ih := ih hr hb
    rw [List.append_assoc] at ih
    exact .select ha ih
  | noArm => cases hr

/-- A run gives one result. -/
theorem Runs.unique {r r' : Result} (h : Runs i ss node s r) (h' : Runs i ss node s r') :
  r = r'
  := by
  obtain ⟨enough, hr⟩ := exec_of_runs_of_le h
  obtain ⟨enough', hr'⟩ := exec_of_runs_of_le h'
  apply Option.some_inj.mp
  rw [← hr _ (le_max_left enough enough'), hr' _ (le_max_right enough enough')]

theorem State.terminals_enter (s : State) (node : NodeId) (routine : Routine) :
  (s.enter node routine).2.tree.terminals = s.tree.terminals
  := by
  apply (ParseTree.terminals_create _ _ _ _).trans
  apply List.append_nil

theorem State.terminals_leave (s : State) (node child : NodeId) :
  (s.leave node child).tree.terminals = s.tree.terminals
  := by rw [leave, ParseTree.terminals_widen]

/-- A call goes on with the terminals that the routine left, whether it came to its end or not. -/
theorem State.terminals_of_call (s : State) (node child : NodeId) (ok : Bool) :
  (if ok then s.leave node child else s).tree.terminals = s.tree.terminals
  := by
  cases ok with
  | true => apply terminals_leave
  | false => rfl

theorem State.terminals_consume (s : State) (node : NodeId) (t : TerminalId) :
  (s.consume i node t).2.tree.terminals =
    s.tree.terminals ++ (Node.terminal? ⟨(s.consume i node t).1,
      (s.consume i node t).1.label i.grammar.kindName, some node, []⟩).toList
  := by
  have htok : (s.consume i node t).2.tree =
      (s.tree.addToken i.grammar.kindName node (s.consume i node t).1).2 := rfl
  rw [htok, ParseTree.addToken]
  dsimp only
  rw [ParseTree.terminals_widenTo, ParseTree.terminals_create]

/-- No terminal is dropped in a run. -/
theorem Runs.terminals {r : Result} (h : Runs i ss node s r) :
  s.tree.terminals <+: r.2.tree.terminals
  := by
  have hconsume : ∀ (s : State) (node : NodeId) (t : TerminalId),
      s.tree.terminals <+: (s.consume i node t).2.tree.terminals := by
    intro s node t
    rw [State.terminals_consume]
    apply List.prefix_append
  induction h with
  | done node s => apply List.prefix_rfl
  | expect _ _ ih => apply (hconsume _ _ _).trans ih
  | reject _ => apply hconsume
  | skip _ _ ih => apply ih
  | call _ _ _ ihbody ih =>
    rw [State.terminals_enter] at ihbody
    rw [State.terminals_of_call] at ih
    apply ihbody.trans ih
  | take _ _ ih => apply ih
  | pass _ _ ih => apply ih
  | once _ ih => apply ih
  | again _ _ ih => apply ih
  | stop _ _ ih => apply ih
  | select _ _ ih => apply ih
  | noArm _ => apply List.prefix_rfl

/-- A run that ends went on from each place that its statements come to. -/
theorem ComesTo.exists_runs {r : Result} (h : ComesTo i t place there ss node s)
    (hr : Runs i ss node s r) :
  ∃ expected rest r', Runs i (.expect t expected :: rest) place there r' ∧
    r'.2.tree.terminals <+: r.2.tree.terminals
  := by
  induction h generalizing r with
  | here => exact ⟨_, _, r, hr, List.prefix_rfl⟩
  | expect hk _ ih =>
    cases hr with
    | expect _ hr => apply ih hr
    | reject hk' => exact absurd hk hk'
  | skip hn _ ih =>
    cases hr with
    | skip _ hr => apply ih hr
    | call hn' =>
      rw [hn] at hn'
      cases hn'
  | enter hn _ ih =>
    cases hr with
    | skip hn' =>
      rw [hn] at hn'
      cases hn'
    | call hn' hbody hr =>
      rw [hn] at hn'
      cases hn'
      obtain ⟨expected, rest, r', h', hp⟩ := ih hbody
      have hafter := hr.terminals
      rw [State.terminals_of_call] at hafter
      exact ⟨expected, rest, r', h', hp.trans hafter⟩
  | leave hn hbody _ ih =>
    cases hr with
    | skip hn' =>
      rw [hn] at hn'
      cases hn'
    | call hn' hbody' hr =>
      rw [hn] at hn'
      cases hn'
      cases hbody.unique hbody'
      apply ih hr
  | take hk _ ih =>
    cases hr with
    | take _ hr => apply ih hr
    | pass hk' => exact absurd hk hk'
  | pass hk _ ih =>
    cases hr with
    | take hk' => exact absurd hk' hk
    | pass _ hr => apply ih hr
  | once _ ih =>
    cases hr with
    | once hr => apply ih hr
  | again hk _ ih =>
    cases hr with
    | again _ hr => apply ih hr
    | stop hk' => exact absurd hk hk'
  | stop hk _ ih =>
    cases hr with
    | again hk' => exact absurd hk' hk
    | stop _ hr => apply ih hr
  | select ha _ ih =>
    cases hr with
    | select ha' hr =>
      rw [ha] at ha'
      cases ha'
      apply ih hr
    | noArm ha' =>
      rw [ha] at ha'
      cases ha'

/-! ### A token that waits -/

/-- A token of a terminal was seen ahead and not consumed. -/
def State.Sees (s : State) (t : TerminalId) : Prop :=
  ∃ p ∈ s.scanner.ahead, p.1.kind = .terminal t

/-- Between two states nothing was scanned, so that no terminal was added, and no error was
recorded. -/
structure State.Keeps (s s' : State) : Prop where
  scanner : s'.scanner = s.scanner
  errors : s'.tree.errors = s.tree.errors
  terminals : s'.tree.terminals = s.tree.terminals

theorem State.Keeps.refl (s : State) :
  s.Keeps s
  := ⟨rfl, rfl, rfl⟩

theorem State.Keeps.trans (h : s.Keeps s') (h' : s'.Keeps there) :
  s.Keeps there
  := ⟨h'.scanner.trans h.scanner, h'.errors.trans h.errors, h'.terminals.trans h.terminals⟩

theorem State.Keeps.sees (h : s.Keeps s') (hs : s.Sees t) :
  s'.Sees t
  := by
  rw [State.Sees, h.scanner]
  apply hs

theorem State.keeps_enter (s : State) (node : NodeId) (routine : Routine) :
  s.Keeps (s.enter node routine).2
  := ⟨rfl, rfl, s.terminals_enter node routine⟩

theorem State.keeps_leave (s : State) (node child : NodeId) :
  s.Keeps (s.leave node child)
  := by
  refine ⟨rfl, ?_, s.terminals_leave node child⟩
  rw [State.leave, errors_widen]

/-- What was seen ahead comes up, whatever is expected. -/
theorem State.upcoming_of_ahead {p : Token SymbolKind × Cursor} (hp : p ∈ s.scanner.ahead)
    (hk : p.1.kind = .terminal t) (expected : List SymbolKind) :
  i.grammar.scanner.upcoming s.scanner expected = p
  := by
  obtain ⟨token, after⟩ := p
  have hne : token.kind ≠ TokenKind.undetermined := by
    rw [hk]
    rintro ⟨⟩
  rw [Scanner.upcoming, Option.mem_def.mp hp]
  apply if_neg hne

/-- The token that was seen ahead is consumed. -/
theorem State.consume_of_ahead {p : Token SymbolKind × Cursor} (hp : p ∈ s.scanner.ahead)
    (hk : p.1.kind = .terminal t) (node : NodeId) :
  (s.consume i node t).1 = p.1
  := by
  have hup := upcoming_of_ahead (i := i) hp hk [.terminal t]
  change (i.grammar.scanner.upcoming s.scanner _).1 = p.1
  rw [hup]

/-- Looking ahead sees the token that waits and changes nothing. -/
theorem State.Sees.lookAhead (h : s.Sees t) (ts : List TerminalId) :
  (s.lookAhead i ts).1.kind = .terminal t ∧ (s.lookAhead i ts).2 = s
  := by
  obtain ⟨p, hp, hk⟩ := h
  have hup := upcoming_of_ahead (i := i) hp hk (ts.map .terminal)
  constructor
  · change (i.grammar.scanner.upcoming s.scanner _).1.kind = _
    rw [hup, hk]
  · change (⟨⟨s.scanner.cursor, some (i.grammar.scanner.upcoming s.scanner _)⟩, s.tree⟩ : State) = s
    rw [hup, ← Option.mem_def.mp hp]

theorem State.Sees.isOneOf_iff (h : s.Sees t) (us ts : List TerminalId) :
  isOneOf (s.lookAhead i us).1 ts ↔ t ∈ ts
  := by
  rw [isOneOf, (h.lookAhead us).1]
  apply decide_eq_true_iff

/-! ### Taking and passing a token -/

/-- While a token of a terminal waits, statements come to a place where it is expected. -/
def Takes (i : Interpreter) (t : TerminalId) (ss : List Stmt) : Prop :=
  ∀ (node : NodeId) (s : State), s.Sees t →
    ∃ place there, ComesTo i t place there ss node s ∧ s.Keeps there

/-- While a token of a terminal waits, statements run up to their end. -/
def Passes (i : Interpreter) (t : TerminalId) (ss : List Stmt) : Prop :=
  ∀ (node : NodeId) (s : State), s.Sees t → ∃ s', Runs i ss node s (true, s') ∧ s.Keeps s'

theorem Takes.append (h : i.Takes t a) (b : List Stmt) :
  i.Takes t (a ++ b)
  := by
  intro node s hs
  obtain ⟨place, there, hc, hk⟩ := h node s hs
  exact ⟨place, there, hc.append b, hk⟩

theorem passes_nil :
  i.Passes t []
  := fun node s _ => ⟨s, .done node s, .refl s⟩

theorem Passes.append (ha : i.Passes t a) (hb : i.Passes t b) :
  i.Passes t (a ++ b)
  := by
  intro node s hs
  obtain ⟨s₁, h₁, hk₁⟩ := ha node s hs
  obtain ⟨s₂, h₂, hk₂⟩ := hb node s₁ (hk₁.sees hs)
  exact ⟨s₂, h₁.append (fun _ => h₂) (by rintro ⟨⟩), hk₁.trans hk₂⟩

theorem Passes.takes (ha : i.Passes t a) (hb : i.Takes t b) :
  i.Takes t (a ++ b)
  := by
  intro node s hs
  obtain ⟨s₁, h₁, hk₁⟩ := ha node s hs
  obtain ⟨place, there, hc, hk₂⟩ := hb node s₁ (hk₁.sees hs)
  exact ⟨place, there, h₁.comesTo rfl hc, hk₁.trans hk₂⟩

theorem takes_expect (expected : String) (rest : List Stmt) :
  i.Takes t (.expect t expected :: rest)
  := fun node s _ => ⟨node, s, .here, .refl s⟩

/-! ### Calls -/

section

variable {n : NonterminalId} {routine : Routine} (hn : i.program.routine? n = some routine)
include hn

theorem takes_call (h : i.Takes t routine.body) :
  i.Takes t [.call n]
  := by
  intro node s hs
  have he := s.keeps_enter node routine
  obtain ⟨place, there, hc, hk⟩ := h _ _ (he.sees hs)
  exact ⟨place, there, .enter hn hc, he.trans hk⟩

theorem passes_call (h : i.Passes t routine.body) :
  i.Passes t [.call n]
  := by
  intro node s hs
  have he := s.keeps_enter node routine
  obtain ⟨s₁, h₁, hk⟩ := h _ _ (he.sees hs)
  exact ⟨_, .call hn h₁ (.done node _), (he.trans hk).trans (s₁.keeps_leave node _)⟩

end

/-! ### Options, repetitions and choices -/

theorem takes_optional (ht : t ∈ ts) (h : i.Takes t body) :
  i.Takes t [.optional ts body]
  := by
  intro node s hs
  obtain ⟨place, there, hc, hk⟩ := h node s hs
  refine ⟨place, there, .take ((hs.isOneOf_iff ts ts).mpr ht) ?_, hk⟩
  rw [(hs.lookAhead ts).2]
  apply hc.append

theorem passes_optional (ht : t ∉ ts) :
  i.Passes t [.optional ts body]
  := by
  intro node s hs
  refine ⟨s, .pass ((hs.isOneOf_iff ts ts).not.mpr ht) ?_, .refl s⟩
  rw [(hs.lookAhead ts).2]
  exact .done node s

theorem takes_loop (ht : t ∈ ts) (h : i.Takes t body) (atLeastOnce : Bool) :
  i.Takes t [.loop ts body atLeastOnce]
  := by
  intro node s hs
  obtain ⟨place, there, hc, hk⟩ := h node s hs
  cases atLeastOnce with
  | true => exact ⟨place, there, .once (hc.append _), hk⟩
  | false =>
    refine ⟨place, there, .again ((hs.isOneOf_iff ts ts).mpr ht) ?_, hk⟩
    rw [(hs.lookAhead ts).2]
    apply hc.append

theorem passes_loop (ht : t ∉ ts) :
  i.Passes t [.loop ts body false]
  := by
  intro node s hs
  refine ⟨s, .stop ((hs.isOneOf_iff ts ts).not.mpr ht) ?_, .refl s⟩
  rw [(hs.lookAhead ts).2]
  exact .done node s

theorem passes_loop_once (ht : t ∉ ts) (h : i.Passes t body) :
  i.Passes t [.loop ts body true]
  := by
  intro node s hs
  obtain ⟨s₁, h₁, hk₁⟩ := h.append (b := [.loop ts body false]) (passes_loop ht) node s hs
  exact ⟨s₁, .once h₁, hk₁⟩

theorem takes_dispatch {arms : List Arm} {arm : Arm} (expected : String)
    (ha : arms.find? (fun a => t ∈ a.terminals) = some arm) (h : i.Takes t arm.body) :
  i.Takes t [.dispatch ts arms expected]
  := by
  intro node s hs
  obtain ⟨place, there, hc, hk⟩ := h node s hs
  have hsel : ∀ a : Arm, isOneOf (s.lookAhead i ts).1 a.terminals = decide (t ∈ a.terminals) := by
    intro a
    rw [Bool.eq_iff_iff, hs.isOneOf_iff, decide_eq_true_iff]
  refine ⟨place, there, .select (a := arm) ?_ ?_, hk⟩
  · simp only [hsel, ha]
  · rw [(hs.lookAhead ts).2]
    apply hc.append

end Interpreter

end Descent
