import Mathlib.Data.List.Forall2
import Descent.Proofs.Caching
import Descent.Proofs.Distinctness
import Descent.Proofs.Lowering

/-!
# Where programs branch

A routine branches on the next token at an option, a repetition or a choice of the rules that it is
made of, and several rules of a nonterminal are a choice too (`Decision`).  Every statement that
branches, at any depth, serves such a decision (`Program.Serves`):

* An operand is taken on the terminals of its FIRST set, of which there is one at least.
* The terminals of the FIRST set of a choice are shared out among its arms
  (`Program.SharesOut`): each goes to the first alternative whose FIRST set has it, and an
  alternative for which nothing is left has no arm.  This follows from what the alternatives that
  are lowered one by one leave to those after them (`Program.claimedAfter_eq`,
  `Program.flatMap_lowerArms`, `Program.exists_isArmAt`).
-/

namespace Descent

/-! ### Decisions -/

/-- What is decided by the next token: which alternative is taken, or whether an operand is. -/
inductive Decision where
  | choice (alternatives : List Rule)
  | option (operand : Rule)
  | zeroOrMore (operand : Rule)
  | oneOrMore (operand : Rule)

namespace Rule

mutual

/-- The decisions of a rule, each before those of its parts. -/
def decisions : Rule → List Decision
  | terminal .. | nonterminal .. | unresolved .. => []
  | concat _ rs => decisionsAll rs
  | choice _ rs => .choice rs :: decisionsAll rs
  | option _ r => .option r :: decisions r
  | zeroOrMore _ r => .zeroOrMore r :: decisions r
  | oneOrMore _ r => .oneOrMore r :: decisions r

/-- The decisions of several rules. -/
def decisionsAll : List Rule → List Decision
  | [] => []
  | r :: rs => decisions r ++ decisionsAll rs

end

end Rule

/-- The decisions of a nonterminal: several alternatives are a choice. -/
def Nonterminal.decisions (n : Nonterminal) : List Decision :=
  match n.alternatives with
  | [] => []
  | [r] => r.decisions
  | rs => .choice rs :: Rule.decisionsAll rs

namespace Stmt

mutual

/-- The statements that branch in a statement, each before those of its parts. -/
def branches : Stmt → List Stmt
  | expect .. | call _ => []
  | optional ts body => optional ts body :: branchesSeq body
  | loop ts body atLeastOnce => loop ts body atLeastOnce :: branchesSeq body
  | dispatch ts arms expected => dispatch ts arms expected :: branchesArms arms

/-- The statements that branch in several statements. -/
def branchesSeq : List Stmt → List Stmt
  | [] => []
  | s :: ss => branches s ++ branchesSeq ss

/-- The statements that branch in an arm. -/
def branchesArm : Arm → List Stmt
  | .mk _ body => branchesSeq body

/-- The statements that branch in several arms. -/
def branchesArms : List Arm → List Stmt
  | [] => []
  | a :: arms => branchesArm a ++ branchesArms arms

end

theorem branchesSeq_append (ss ss' : List Stmt) :
  branchesSeq (ss ++ ss') = branchesSeq ss ++ branchesSeq ss'
  := by
  induction ss with
  | nil => rfl
  | cons s ss ih => rw [List.cons_append, branchesSeq, branchesSeq, ih, List.append_assoc]

theorem branchesSeq_singleton (s : Stmt) :
  branchesSeq [s] = s.branches
  := List.append_nil s.branches

end Stmt

namespace Program

variable (g : Grammar) (fs : FirstSets)

/-! ### Shared out terminals -/

/-- A terminal is claimed when an alternative is reached: it was claimed before, or the FIRST set of
an alternative before this one has it. -/
def IsClaimed (claimed : List TerminalId) (rs : List Rule) (k : Nat) (t : TerminalId) : Prop :=
  t ∈ claimed ∨ ∃ r ∈ rs.take k, t ∈ lookahead fs r

/-- The arm of the alternative at an index: its statements, and the terminals of its FIRST set that
are not claimed when it is reached. -/
def IsArmAt (claimed : List TerminalId) (rs : List Rule) (k : Nat) (a : Arm) : Prop :=
  ∃ r, rs[k]? = some r ∧ a.body = lower g fs r ∧
    ∀ t, t ∈ a.terminals ↔ t ∈ lookahead fs r ∧ ¬ IsClaimed fs claimed rs k t

/-- Terminals are shared out among the arms of a choice. -/
structure SharesOut (rs : List Rule) (ts : List TerminalId) (arms : List Arm) : Prop where
  /-- They are those of the FIRST set of the choice, in order. -/
  lookahead_eq : ∀ id, ts = lookahead fs (.choice id rs)
  nodup : ts.Nodup
  /-- Side by side, the terminals of the arms are all of them. -/
  flatMap_eq : arms.flatMap Arm.terminals = ts
  ne_nil : ∀ a ∈ arms, a.terminals ≠ []
  disjoint : arms.Pairwise fun a b => a.terminals.Disjoint b.terminals
  /-- The arms are those of some alternatives, in order.  The others have none: their terminals are
  claimed by alternatives before them. -/
  exists_isArmAt : ∃ ks : List Nat, ks.Pairwise (· < ·) ∧
    List.Forall₂ (IsArmAt g fs [] rs) ks arms ∧
    ∀ k r, rs[k]? = some r → (k ∉ ks ↔ ∀ t ∈ lookahead fs r, IsClaimed fs [] rs k t)

/-- A statement that branches serves a decision. -/
inductive Serves : Stmt → Decision → Prop
  | choice {rs : List Rule} {ts : List TerminalId} {arms : List Arm}
      (h : SharesOut g fs rs ts arms) :
      Serves (.dispatch ts arms (expectedList (ts.map (niceName g)))) (.choice rs)
  | option {r : Rule} (h : lookahead fs r ≠ []) :
      Serves (.optional (lookahead fs r) (lower g fs r)) (.option r)
  | zeroOrMore {r : Rule} (h : lookahead fs r ≠ []) :
      Serves (.loop (lookahead fs r) (lower g fs r) false) (.zeroOrMore r)
  | oneOrMore {r : Rule} (h : lookahead fs r ≠ []) :
      Serves (.loop (lookahead fs r) (lower g fs r) true) (.oneOrMore r)

variable {g fs} {r : Rule} {rs : List Rule} {claimed : List TerminalId} {k : Nat} {t : TerminalId}

theorem mem_unclaimed :
  t ∈ unclaimed fs claimed r ↔ t ∈ lookahead fs r ∧ t ∉ claimed
  := by simp [unclaimed]

/-- What is neither claimed before an alternative nor by it is not claimed after it. -/
theorem filter_notMem_claimed (claimed us : List TerminalId) (r : Rule) :
  us.filter (· ∉ claimed ++ unclaimed fs claimed r) =
    (us.filter (· ∉ lookahead fs r)).filter (· ∉ claimed)
  := by
  rw [List.filter_filter]
  apply List.filter_congr
  intro t _
  rw [Bool.eq_iff_iff]
  simp only [List.mem_append, mem_unclaimed, decide_eq_true_eq, Bool.and_eq_true]
  tauto

theorem isClaimed_zero :
  IsClaimed fs claimed rs 0 t ↔ t ∈ claimed
  := by simp [IsClaimed]

/-- What an alternative claims is claimed for those after it. -/
theorem isClaimed_succ :
  IsClaimed fs claimed (r :: rs) (k + 1) t ↔
    IsClaimed fs (claimed ++ unclaimed fs claimed r) rs k t
  := by
  simp only [IsClaimed, List.take_succ_cons, List.exists_mem_cons_iff, List.mem_append,
    mem_unclaimed]
  tauto

theorem isArmAt_succ {a : Arm} :
  IsArmAt g fs claimed (r :: rs) (k + 1) a ↔
    IsArmAt g fs (claimed ++ unclaimed fs claimed r) rs k a
  := by simp only [IsArmAt, List.getElem?_cons_succ, isClaimed_succ]

theorem isArmAt_zero (g : Grammar) (r : Rule) (rs : List Rule) :
  IsArmAt g fs claimed (r :: rs) 0 (.mk (unclaimed fs claimed r) (lower g fs r))
  := by
  refine ⟨r, rfl, rfl, ?_⟩
  intro t
  rw [isClaimed_zero]
  apply mem_unclaimed

/-- Alternatives share out the terminals of their FIRST set that are not claimed. -/
theorem flatMap_lowerArms (rs : List Rule) : ∀ claimed : List TerminalId,
  (lowerArms g fs claimed rs).flatMap Arm.terminals =
    (Rule.firstChoice fs.of rs).terminals.filter (· ∉ claimed)
  := by
  induction rs with
  | nil =>
    intro claimed
    rfl
  | cons r rs ih =>
    intro claimed
    have hfirst : (Rule.firstChoice fs.of (r :: rs)).terminals.filter (· ∉ claimed) =
        unclaimed fs claimed r ++ (Rule.firstChoice fs.of rs).terminals.filter
          (· ∉ claimed ++ unclaimed fs claimed r) := by
      rw [filter_notMem_claimed, Rule.firstChoice, FirstSet.either, FirstSet.join,
        List.filter_append]
      rfl
    rw [hfirst, lowerArms_cons]
    split
    case isTrue h =>
      rw [ih, List.isEmpty_iff.mp h]
      rfl
    case isFalse =>
      rw [List.flatMap_cons, ih]
      rfl

/-- The arms are those of some alternatives, in order, and of the others all terminals are
claimed. -/
theorem exists_isArmAt (g : Grammar) (fs : FirstSets) (rs : List Rule) :
    ∀ claimed : List TerminalId,
  ∃ ks : List Nat, ks.Pairwise (· < ·) ∧
    List.Forall₂ (IsArmAt g fs claimed rs) ks (lowerArms g fs claimed rs) ∧
    ∀ k r, rs[k]? = some r → (k ∉ ks ↔ ∀ t ∈ lookahead fs r, IsClaimed fs claimed rs k t)
  := by
  induction rs with
  | nil =>
    intro claimed
    exact ⟨[], .nil, .nil, by simp⟩
  | cons r rs ih =>
    intro claimed
    obtain ⟨ks, hsorted, harms, hothers⟩ := ih (claimed ++ unclaimed fs claimed r)
    have hsorted' : (ks.map (· + 1)).Pairwise (· < ·) := by
      apply hsorted.map
      intro j k hjk
      apply Nat.succ_lt_succ hjk
    have harms' : List.Forall₂ (IsArmAt g fs claimed (r :: rs)) (ks.map (· + 1))
        (lowerArms g fs (claimed ++ unclaimed fs claimed r) rs) := by
      rw [List.forall₂_map_left_iff]
      apply harms.imp
      intro k a h
      apply isArmAt_succ.mpr h
    -- Whether a later alternative has an arm does not depend on the first one having one.
    have hothers' : ∀ k q, rs[k]? = some q → (k + 1 ∉ ks.map (· + 1) ↔
        ∀ t ∈ lookahead fs q, IsClaimed fs claimed (r :: rs) (k + 1) t) := by
      intro k q hq
      simp only [isClaimed_succ, ← hothers k q hq]
      simp
    rw [lowerArms_cons]
    split
    case isTrue h =>
      refine ⟨_, hsorted', harms', ?_⟩
      rintro (_ | k) q hq
      · obtain rfl := Option.some_inj.mp hq
        simpa [isClaimed_zero, unclaimed] using h
      · apply hothers' k q hq
    case isFalse h =>
      refine ⟨0 :: ks.map (· + 1), ?_, .cons (isArmAt_zero g r rs) harms', ?_⟩
      · apply List.pairwise_cons.mpr ⟨by simp, hsorted'⟩
      · rintro (_ | k) q hq
        · obtain rfl := Option.some_inj.mp hq
          simpa [isClaimed_zero, unclaimed] using h
        · rw [← hothers' k q hq]
          simp

theorem ne_nil_of_mem_lowerArms (rs : List Rule) : ∀ {claimed : List TerminalId},
  ∀ a ∈ lowerArms g fs claimed rs, a.terminals ≠ []
  := by
  induction rs with
  | nil => simp [lowerArms]
  | cons r rs ih =>
    intro claimed
    rw [lowerArms_cons]
    split
    case isTrue => apply ih
    case isFalse h => apply List.forall_mem_cons.mpr ⟨by simpa [Arm.terminals] using h, ih⟩

/-- If FIRST sets list no terminal twice, the arms of a choice share out the terminals of its FIRST
set. -/
theorem sharesOut_lowerArms (hfs : ∀ r, (fs.ofRule r).Distinct) (rs : List Rule) :
  SharesOut g fs rs (claimedAfter fs [] rs) (lowerArms g fs [] rs)
  := by
  have hclaimed := claimedAfter_eq g fs rs []
  rw [List.nil_append] at hclaimed
  have heq : ∀ id, claimedAfter fs [] rs = lookahead fs (.choice id rs) := by
    intro id
    rw [hclaimed, flatMap_lowerArms rs []]
    simp [lookahead, FirstSets.ofRule, Rule.first]
  have hnodup : (claimedAfter fs [] rs).Nodup := by
    rw [heq ⟨0⟩]
    apply hfs
  have hdisjoint := (List.nodup_flatMap.mp (hclaimed ▸ hnodup)).2
  exact ⟨heq, hnodup, hclaimed.symm, ne_nil_of_mem_lowerArms rs, hdisjoint,
    exists_isArmAt g fs rs []⟩

/-! ### Statements that branch -/

theorem sublistForall₂_append {α β : Type} {R : α → β → Prop} {xs xs' : List α} {ys ys' : List β}
    (h : List.SublistForall₂ R xs ys) (h' : List.SublistForall₂ R xs' ys') :
  List.SublistForall₂ R (xs ++ xs') (ys ++ ys')
  := by
  obtain ⟨zs, hR, hsub⟩ := List.sublistForall₂_iff.mp h
  obtain ⟨zs', hR', hsub'⟩ := List.sublistForall₂_iff.mp h'
  apply List.sublistForall₂_iff.mpr ⟨zs ++ zs', List.rel_append hR hR', hsub.append hsub'⟩

/-- The statements that branch, of several statements, serve decisions in order; some decisions may
be left out. -/
abbrev AllServe (g : Grammar) (fs : FirstSets) (ss : List Stmt) : List Decision → Prop :=
  List.SublistForall₂ (Serves g fs) (Stmt.branchesSeq ss)

theorem allServe_singleton {s : Stmt} {d : Decision} {ds : List Decision} {ss : List Stmt}
    (hs : s.branches = s :: ss) (h : Serves g fs s d)
    (hrest : List.SublistForall₂ (Serves g fs) ss ds) :
  AllServe g fs [s] (d :: ds)
  := by
  rw [AllServe, Stmt.branchesSeq_singleton, hs]
  apply List.SublistForall₂.cons h hrest

variable {ds : List Decision}

theorem allServe_dispatchOf (hfs : ∀ r, (fs.ofRule r).Distinct)
    (h : List.SublistForall₂ (Serves g fs) (Stmt.branchesArms (lowerArms g fs [] rs)) ds) :
  AllServe g fs (dispatchOf g (claimedAfter fs [] rs) (lowerArms g fs [] rs)) (.choice rs :: ds)
  := by
  rw [dispatchOf]
  split
  · apply List.SublistForall₂.nil
  · apply allServe_singleton rfl (.choice (sharesOut_lowerArms hfs rs)) h

theorem allServe_loopOf {d : Decision} {atLeastOnce : Bool}
    (hd : lookahead fs r ≠ [] →
      Serves g fs (.loop (lookahead fs r) (lower g fs r) atLeastOnce) d)
    (h : AllServe g fs (lower g fs r) ds) :
  AllServe g fs (loopOf (lookahead fs r) (lower g fs r) atLeastOnce) (d :: ds)
  := by
  rw [loopOf]
  split
  case isTrue hne =>
    apply allServe_singleton rfl (hd (by simpa using hne)) h
  case isFalse =>
    split
    · apply List.SublistForall₂.cons_right h
    · apply List.SublistForall₂.nil

mutual

/-- What branches in the statements of a rule serves the decisions of the rule. -/
theorem allServe_lower (hfs : ∀ r, (fs.ofRule r).Distinct) : ∀ r : Rule,
  AllServe g fs (lower g fs r) r.decisions
  | .terminal .. | .nonterminal .. | .unresolved .. => .nil
  | .concat _ rs => allServe_lowerSeq hfs rs
  | .choice _ rs => allServe_dispatchOf hfs (serve_lowerArms hfs rs [])
  | .option _ r => by
      rw [lower, optionalOf]
      split
      case isTrue => apply List.SublistForall₂.nil
      case isFalse h =>
        apply allServe_singleton rfl (.option (by simpa using h)) (allServe_lower hfs r)
  | .zeroOrMore _ r => allServe_loopOf .zeroOrMore (allServe_lower hfs r)
  | .oneOrMore _ r => allServe_loopOf .oneOrMore (allServe_lower hfs r)

theorem allServe_lowerSeq (hfs : ∀ r, (fs.ofRule r).Distinct) : ∀ rs : List Rule,
  AllServe g fs (lowerSeq g fs rs) (Rule.decisionsAll rs)
  | [] => .nil
  | r :: rs => by
      rw [lowerSeq_cons, AllServe, Stmt.branchesSeq_append]
      apply sublistForall₂_append (allServe_lower hfs r) (allServe_lowerSeq hfs rs)

theorem serve_lowerArms (hfs : ∀ r, (fs.ofRule r).Distinct) : ∀ (rs : List Rule)
    (claimed : List TerminalId),
  List.SublistForall₂ (Serves g fs) (Stmt.branchesArms (lowerArms g fs claimed rs))
    (Rule.decisionsAll rs)
  | [], _ => .nil
  | r :: rs, claimed => by
      have hrest := serve_lowerArms hfs rs (claimed ++ unclaimed fs claimed r)
      rw [lowerArms_cons]
      split
      · apply sublistForall₂_append .nil hrest
      · apply sublistForall₂_append (allServe_lower hfs r) hrest

end

theorem allServe_lowerAlternatives (hfs : ∀ r, (fs.ofRule r).Distinct) (n : Nonterminal) :
  AllServe g fs (lowerAlternatives g fs n.alternatives) n.decisions
  := by
  rw [Nonterminal.decisions]
  match n.alternatives with
  | [] => apply List.SublistForall₂.nil
  | [r] => apply allServe_lower hfs r
  | r :: q :: rs => apply allServe_dispatchOf hfs (serve_lowerArms hfs (r :: q :: rs) [])

end Program

namespace Grammar

variable {g : Grammar}

/-- The statements of a routine that branch, at any depth, serve decisions of its nonterminal, in
order.  A dispatch serves a choice: the terminals of the FIRST set of the choice are shared out
among its arms, each to the first alternative whose FIRST set has it.  An option or a repetition
looks for the terminals of the FIRST set of its operand, of which there is one at least. -/
theorem serves_program (hg : g.Fresh) :
  ∀ routine ∈ g.program.routines,
    List.SublistForall₂ (Program.Serves g g.firstSets) (Stmt.branchesSeq routine.body)
      (g.nonterminal routine.nonterminal).decisions
  := by
  intro routine hroutine
  obtain ⟨n, -, rfl⟩ := List.mem_map.mp hroutine
  apply Program.allServe_lowerAlternatives
  rw [hg.firstSets_eq]
  apply FirstSets.distinct_ofRule

/-- Of `Start -> 'a' 'b'?; Start -> 'b' | 'a'; Start -> 'a'+;` the last alternative has no arm, so
that three of four decisions are served. -/
theorem serves_program_start :
  let a : Rule := .terminal ⟨0⟩ ⟨0⟩
  let b : Rule := .terminal ⟨1⟩ ⟨1⟩
  let ops : List Operation := [.addNonterminal (.bare startName .nowhere),
    .addLiteral "a" [] .nowhere, .addLiteral "b" [] .nowhere,
    .addAlternative ⟨0⟩ (.concat ⟨3⟩ [a, .option ⟨2⟩ b]),
    .addAlternative ⟨0⟩ (.choice ⟨4⟩ [b, a]), .addAlternative ⟨0⟩ (.oneOrMore ⟨5⟩ a)]
  let g := build ops
  g.Fresh ∧ g.routine ⟨0⟩ ∈ g.program.routines ∧
    (Stmt.branchesSeq (g.routine ⟨0⟩).body).length = 3 ∧
    (g.nonterminal ⟨0⟩).decisions.length = 4 ∧
    List.SublistForall₂ (Program.Serves g g.firstSets) (Stmt.branchesSeq (g.routine ⟨0⟩).body)
      (g.nonterminal ⟨0⟩).decisions
  := by
  intro a b ops g
  have hmem : g.routine ⟨0⟩ ∈ g.program.routines := by
    apply List.mem_map_of_mem (mem_nonterminalIds.mpr (by decide +kernel))
  refine ⟨fresh_build ops, hmem, by decide +kernel, by decide +kernel, ?_⟩
  exact serves_program (fresh_build ops) (g.routine ⟨0⟩) hmem

end Grammar

end Descent
