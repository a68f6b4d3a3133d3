import Mathlib.Data.Nat.Basic
import Mathlib.Tactic.Common
import Descent.Interpreter

/-!
# Runs

A run of statements as a relation, without fuel (`Interpreter.Runs`): the body of an option, of a
repetition and of an arm is run together with what follows it.  Statements are run if executing them
with some fuel gives a result (`Interpreter.runs_of_exec`), and then executing them with any fuel
that is enough gives the same (`Interpreter.exec_of_runs_of_le`).
-/

namespace Descent

namespace Interpreter

variable {i : Interpreter}

/-! ### The relation -/

/-- Running statements in a node, from a state to a result. -/
inductive Runs (i : Interpreter) : List Stmt → NodeId → State → Result → Prop
  | done (node : NodeId) (s : State) : Runs i [] node s (true, s)
  | expect {t : TerminalId} {expected : String} {rest : List Stmt} {node : NodeId} {s : State}
      {r : Result} (hk : (s.consume i node t).1.kind = .terminal t)
      (h : Runs i rest node (s.consume i node t).2 r) :
      Runs i (.expect t expected :: rest) node s r
  | reject {t : TerminalId} {expected : String} {rest : List Stmt} {node : NodeId} {s : State}
      (hk : (s.consume i node t).1.kind ≠ .terminal t) :
      Runs i (.expect t expected :: rest) node s
        (false, (s.consume i node t).2.reject Diagnostic.unexpectedToken (s.consume i node t).1
          expected)
  | skip {n : NonterminalId} {rest : List Stmt} {node : NodeId} {s : State} {r : Result}
      (hn : i.program.routine? n = none) (h : Runs i rest node s r) :
      Runs i (.call n :: rest) node s r
  | call {n : NonterminalId} {rest : List Stmt} {node : NodeId} {s s' : State} {r : Result}
      {routine : Routine} {ok : Bool} (hn : i.program.routine? n = some routine)
      (hbody : Runs i routine.body (s.enter node routine).1 (s.enter node routine).2 (ok, s'))
      (h : Runs i rest node (if ok then s'.leave node (s.enter node routine).1 else s') r) :
      Runs i (.call n :: rest) node s r
  | take {ts : List TerminalId} {body rest : List Stmt} {node : NodeId} {s : State} {r : Result}
      (hk : isOneOf (s.lookAhead i ts).1 ts)
      (h : Runs i (body ++ rest) node (s.lookAhead i ts).2 r) :
      Runs i (.optional ts body :: rest) node s r
  | pass {ts : List TerminalId} {body rest : List Stmt} {node : NodeId} {s : State} {r : Result}
      (hk : ¬ isOneOf (s.lookAhead i ts).1 ts) (h : Runs i rest node (s.lookAhead i ts).2 r) :
      Runs i (.optional ts body :: rest) node s r
  | once {ts : List TerminalId} {body rest : List Stmt} {node : NodeId} {s : State} {r : Result}
      (h : Runs i (body ++ .loop ts body false :: rest) node s r) :
      Runs i (.loop ts body true :: rest) node s r
  | again {ts : List TerminalId} {body rest : List Stmt} {node : NodeId} {s : State} {r : Result}
      (hk : isOneOf (s.lookAhead i ts).1 ts)
      (h : Runs i (body ++ .loop ts body false :: rest) node (s.lookAhead i ts).2 r) :
      Runs i (.loop ts body false :: rest) node s r
  | stop {ts : List TerminalId} {body rest : List Stmt} {node : NodeId} {s : State} {r : Result}
      (hk : ¬ isOneOf (s.lookAhead i ts).1 ts) (h : Runs i rest node (s.lookAhead i ts).2 r) :
      Runs i (.loop ts body false :: rest) node s r
  | select {ts : List TerminalId} {arms : List Arm} {expected : String} {rest : List Stmt}
      {node : NodeId} {s : State} {r : Result} {a : Arm}
      (ha : arms.find? (fun a => isOneOf (s.lookAhead i ts).1 a.terminals) = some a)
      (h : Runs i (a.body ++ rest) node (s.lookAhead i ts).2 r) :
      Runs i (.dispatch ts arms expected :: rest) node s r
  | noArm {ts : List TerminalId} {arms : List Arm} {expected : String} {rest : List Stmt}
      {node : NodeId} {s : State}
      (ha : arms.find? (fun a => isOneOf (s.lookAhead i ts).1 a.terminals) = none) :
      Runs i (.dispatch ts arms expected :: rest) node s
        (false, (s.lookAhead i ts).2.reject Diagnostic.noAlternative (s.lookAhead i ts).1
          (expected ++ "."))

/-- A run of statements goes on with what follows them if it reached its end. -/
theorem Runs.append {a b : List Stmt} {node : NodeId} {s : State} {r r' : Result}
    (h : Runs i a node s r) (hb : r.1 = true → Runs i b node r.2 r') (hr : r.1 = false → r' = r) :
  Runs i (a ++ b) node s r'
  := by
  induction h with
  | done node s => apply hb rfl
  | expect hk _ ih => exact .expect hk (ih hb hr)
  | reject hk =>
    rw [hr rfl]
    exact .reject hk
  | skip hn _ ih => exact .skip hn (ih hb hr)
  | call hn hbody _ _ ih => exact .call hn hbody (ih hb hr)
  | take hk _ ih =>
    rw [List.cons_append]
    apply Runs.take hk
    rw [← List.append_assoc]
    apply ih hb hr
  | pass hk _ ih => exact .pass hk (ih hb hr)
  | once _ ih =>
    rw [List.cons_append]
    apply Runs.once
    rw [← List.cons_append, ← List.append_assoc]
    apply ih hb hr
  | again hk _ ih =>
    rw [List.cons_append]
    apply Runs.again hk
    rw [← List.cons_append, ← List.append_assoc]
    apply ih hb hr
  | stop hk _ ih => exact .stop hk (ih hb hr)
  | select ha _ ih =>
    rw [List.cons_append]
    apply Runs.select ha
    rw [← List.append_assoc]
    apply ih hb hr
  | noArm ha =>
    rw [hr rfl]
    exact .noArm ha

/-! ### Executing is running -/

/-- Going on after statements gives what they give if they returned early, and else what follows
gives. -/
theorem andThen_eq_some {p : Option Result} {next : State → Option Result} {r : Result} :
  andThen p next = some r ↔
    ∃ q, p = some q ∧ (q.1 = true → next q.2 = some r) ∧ (q.1 = false → r = q)
  := by
  unfold andThen
  split
  · next s =>
    constructor
    · intro h
      exact ⟨_, rfl, fun _ => h, fun h => by cases h⟩
    · rintro ⟨_, ⟨⟩, h, _⟩
      apply h rfl
  · next hp =>
    constructor
    · intro h
      refine ⟨r, h, ?_, fun _ => rfl⟩
      intro hr
      exact absurd (by rw [h, ← hr]) (hp r.2)
    · rintro ⟨q, rfl, hq, hq'⟩
      cases hb : q.1 with
      | true => exact absurd (by rw [← hb]) (hp q.2)
      | false => rw [hq' hb]

/-- What is executed is run. -/
theorem runs_of_exec (fuel : Nat) : ∀ {ss : List Stmt} {node : NodeId} {s : State} {r : Result},
    exec i fuel ss node s = some r →
  Runs i ss node s r
  := by
  induction fuel with
  | zero =>
    rintro ss node s r ⟨⟩
  | succ fuel ih =>
    intro ss node s r h
    match ss with
    | [] =>
      cases h
      exact .done node s
    | .expect t expected :: rest =>
      rw [exec] at h
      dsimp only at h
      split at h
      case isTrue hk => exact .expect hk (ih h)
      case isFalse hk =>
        cases h
        exact .reject hk
    | .call n :: rest =>
      rw [exec] at h
      split at h
      case h_1 hn => exact .skip hn (ih h)
      case h_2 routine hn =>
        dsimp only at h
        split at h
        · cases h
        · next s' hb => exact .call hn (ih hb) (ih h)
        · next s' hb => exact .call hn (ih hb) (ih h)
    | .optional ts body :: rest =>
      rw [exec] at h
      dsimp only at h
      split at h
      case isTrue hk =>
        obtain ⟨q, hq, hn, hr⟩ := andThen_eq_some.mp h
        exact .take hk ((ih hq).append (fun h => ih (hn h)) hr)
      case isFalse hk => exact .pass hk (ih h)
    | .loop ts body true :: rest =>
      rw [exec] at h
      obtain ⟨q, hq, hn, hr⟩ := andThen_eq_some.mp h
      exact .once ((ih hq).append (fun h => ih (hn h)) hr)
    | .loop ts body false :: rest =>
      rw [exec] at h
      dsimp only at h
      split at h
      case isTrue hk =>
        obtain ⟨q, hq, hn, hr⟩ := andThen_eq_some.mp h
        exact .again hk ((ih hq).append (fun h => ih (hn h)) hr)
      case isFalse hk => exact .stop hk (ih h)
    | .dispatch ts arms expected :: rest =>
      rw [exec] at h
      dsimp only at h
      split at h
      case h_1 a ha =>
        obtain ⟨q, hq, hn, hr⟩ := andThen_eq_some.mp h
        exact .select ha ((ih hq).append (fun h => ih (hn h)) hr)
      case h_2 ha =>
        cases h
        exact .noArm ha

/-- What goes on after statements goes on in the same way if both give the same with more fuel. -/
theorem andThen_mono {p p' : Option Result} {next next' : State → Option Result} {r : Result}
    (hp : ∀ q, p = some q → p' = some q) (hn : ∀ s, next s = some r → next' s = some r)
    (h : andThen p next = some r) :
  andThen p' next' = some r
  := by
  obtain ⟨q, hq, hgo, hr⟩ := andThen_eq_some.mp h
  apply andThen_eq_some.mpr ⟨q, hp q hq, fun hb => hn q.2 (hgo hb), hr⟩

theorem andThen_assoc (p : Option Result) (next next' : State → Option Result) :
  andThen (andThen p next) next' = andThen p fun s => andThen (next s) next'
  := by
  match p with
  | none => rfl
  | some (true, s) => rfl
  | some (false, s) => rfl

/-- With more fuel statements that have ended end the same way. -/
theorem exec_succ (fuel : Nat) : ∀ {ss : List Stmt} {node : NodeId} {s : State} {r : Result},
    exec i fuel ss node s = some r →
  exec i (fuel + 1) ss node s = some r
  := by
  induction fuel with
  | zero =>
    rintro ss node s r ⟨⟩
  | succ fuel ih =>
    intro ss node s r h
    match ss with
    | [] => apply h
    | .expect t expected :: rest =>
      rw [exec] at h ⊢
      dsimp only at h ⊢
      split at h
      case isTrue hk =>
        rw [if_pos hk]
        apply ih h
      case isFalse hk => rwa [if_neg hk]
    | .call n :: rest =>
      rw [exec] at h ⊢
      split at h
      case h_1 hn => apply ih h
      case h_2 routine hn =>
        dsimp only at h ⊢
        split at h
        · cases h
        · next s' hb =>
          rw [ih hb]
          apply ih h
        · next s' hb =>
          rw [ih hb]
          apply ih h
    | .optional ts body :: rest =>
      rw [exec] at h ⊢
      dsimp only at h ⊢
      split at h
      case isTrue hk =>
        rw [if_pos hk]
        apply andThen_mono (fun _ => ih) (fun _ => ih) h
      case isFalse hk =>
        rw [if_neg hk]
        apply ih h
    | .loop ts body true :: rest =>
      rw [exec] at h ⊢
      apply andThen_mono (fun _ => ih) (fun _ => ih) h
    | .loop ts body false :: rest =>
      rw [exec] at h ⊢
      dsimp only at h ⊢
      split at h
      case isTrue hk =>
        rw [if_pos hk]
        apply andThen_mono (fun _ => ih) (fun _ => ih) h
      case isFalse hk =>
        rw [if_neg hk]
        apply ih h
    | .dispatch ts arms expected :: rest =>
      rw [exec] at h ⊢
      dsimp only at h ⊢
      split at h
      case h_1 a ha => apply andThen_mono (fun _ => ih) (fun _ => ih) h
      case h_2 ha => apply h

theorem exec_mono {fuel fuel' : Nat} (hle : fuel ≤ fuel') {ss : List Stmt} {node : NodeId}
    {s : State} {r : Result} (h : exec i fuel ss node s = some r) :
  exec i fuel' ss node s = some r
  := by
  induction hle with
  | refl => apply h
  | step _ ih => apply exec_succ _ ih

/-- Statements that end together with what follows them end by themselves. -/
theorem exec_append (fuel : Nat) : ∀ {a b : List Stmt} {node : NodeId} {s : State} {r : Result},
    exec i fuel (a ++ b) node s = some r →
  andThen (exec i fuel a node s) (exec i fuel b node) = some r
  := by
  induction fuel with
  | zero =>
    rintro a b node s r ⟨⟩
  | succ fuel ih =>
    intro a b node s r h
    have hrest : ∀ {rest : List Stmt} {s : State}, exec i fuel (rest ++ b) node s = some r →
        andThen (exec i fuel rest node s) (exec i (fuel + 1) b node) = some r :=
      fun h => andThen_mono (fun _ h => h) (fun _ => exec_succ fuel) (ih h)
    have hbody : ∀ {p : Option Result} {rest : List Stmt},
        andThen p (exec i fuel (rest ++ b) node) = some r →
        andThen (andThen p (exec i fuel rest node)) (exec i (fuel + 1) b node) = some r := by
      intro p rest h
      rw [andThen_assoc]
      apply andThen_mono (fun _ h => h) (fun _ => hrest) h
    match a with
    | [] => apply h
    | .expect t expected :: rest =>
      rw [List.cons_append, exec] at h
      rw [exec]
      dsimp only at h ⊢
      split at h
      case isTrue hk =>
        rw [if_pos hk]
        apply hrest h
      case isFalse hk => rwa [if_neg hk]
    | .call n :: rest =>
      rw [List.cons_append, exec] at h
      rw [exec]
      split at h
      case h_1 hn => apply hrest h
      case h_2 routine hn =>
        dsimp only at h ⊢
        split at h
        · cases h
        · apply hrest h
        · apply hrest h
    | .optional ts body :: rest =>
      rw [List.cons_append, exec] at h
      rw [exec]
      dsimp only at h ⊢
      split at h
      case isTrue hk =>
        rw [if_pos hk]
        apply hbody h
      case isFalse hk =>
        rw [if_neg hk]
        apply hrest h
    | .loop ts body true :: rest =>
      rw [List.cons_append, exec] at h
      rw [exec]
      apply hbody h
    | .loop ts body false :: rest =>
      rw [List.cons_append, exec] at h
      rw [exec]
      dsimp only at h ⊢
      split at h
      case isTrue hk =>
        rw [if_pos hk]
        apply hbody h
      case isFalse hk =>
        rw [if_neg hk]
        apply hrest h
    | .dispatch ts arms expected :: rest =>
      rw [List.cons_append, exec] at h
      rw [exec]
      dsimp only at h ⊢
      split at h
      case h_1 a ha => apply hbody h
      case h_2 ha => apply h

/-- What is run is executed, with enough fuel. -/
theorem exec_of_runs {ss : List Stmt} {node : NodeId} {s : State} {r : Result}
    (h : Runs i ss node s r) :
  ∃ fuel, exec i fuel ss node s = some r
  := by
  induction h with
  | done node s => exact ⟨1, rfl⟩
  | expect hk _ ih =>
    obtain ⟨fuel, ih⟩ := ih
    use fuel + 1
    rw [exec]
    dsimp only
    rwa [if_pos hk]
  | reject hk =>
    use 1
    rw [exec]
    dsimp only
    rw [if_neg hk]
  | skip hn _ ih =>
    obtain ⟨fuel, ih⟩ := ih
    use fuel + 1
    rwa [exec, hn]
  | @call _ _ _ _ _ _ _ ok hn _ _ ihbody ih =>
    obtain ⟨fuel, ihbody⟩ := ihbody
    obtain ⟨fuel', ih⟩ := ih
    use max fuel fuel' + 1
    rw [exec, hn]
    dsimp only
    rw [exec_mono (le_max_left _ _) ihbody]
    cases ok with
    | true => apply exec_mono (le_max_right _ _) ih
    | false => apply exec_mono (le_max_right _ _) ih
  | take hk _ ih =>
    obtain ⟨fuel, ih⟩ := ih
    use fuel + 1
    rw [exec]
    dsimp only
    rw [if_pos hk]
    apply exec_append fuel ih
  | pass hk _ ih =>
    obtain ⟨fuel, ih⟩ := ih
    use fuel + 1
    rw [exec]
    dsimp only
    rwa [if_neg hk]
  | once _ ih =>
    obtain ⟨fuel, ih⟩ := ih
    use fuel + 1
    rw [exec]
    apply exec_append fuel ih
  | again hk _ ih =>
    obtain ⟨fuel, ih⟩ := ih
    use fuel + 1
    rw [exec]
    dsimp only
    rw [if_pos hk]
    apply exec_append fuel ih
  | stop hk _ ih =>
    obtain ⟨fuel, ih⟩ := ih
    use fuel + 1
    rw [exec]
    dsimp only
    rwa [if_neg hk]
  | select ha _ ih =>
    obtain ⟨fuel, ih⟩ := ih
    use fuel + 1
    rw [exec]
    dsimp only
    rw [ha]
    apply exec_append fuel ih
  | noArm ha =>
    use 1
    rw [exec]
    dsimp only
    rw [ha]

/-- Statements that are run give their result with all fuel that is enough. -/
theorem exec_of_runs_of_le {ss : List Stmt} {node : NodeId} {s : State} {r : Result}
    (h : Runs i ss node s r) :
  ∃ enough, ∀ fuel, enough ≤ fuel → exec i fuel ss node s = some r
  := by
  obtain ⟨enough, h⟩ := exec_of_runs h
  exact ⟨enough, fun fuel hle => exec_mono hle h⟩

end Interpreter

end Descent
