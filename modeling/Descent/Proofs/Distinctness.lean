import Descent.Proofs.FirstSets

/-!
# FIRST sets list no terminal twice

Sets are put together by joins that only add what is new, so that the terminals of a set are
distinct if those of its parts are (`FirstSet.Distinct`).  A survey keeps the sets that it has
finished, and a walk from one whose sets are distinct (`Survey.Distinct`) ends in such a one, with a
set that is distinct too (`Survey.distinct_walk`).
-/

namespace Descent

/-! ### Sets -/

namespace FirstSet

variable {f h : FirstSet}

/-- No terminal is listed twice. -/
def Distinct (f : FirstSet) : Prop := f.terminals.Nodup

theorem distinct_none :
  none.Distinct
  := List.nodup_nil

theorem distinct_empty (passed : Bool) :
  Distinct ⟨[], passed⟩
  := List.nodup_nil

theorem distinct_singleton (t : TerminalId) :
  Distinct ⟨[t], false⟩
  := List.nodup_singleton t

theorem Distinct.either (hf : f.Distinct) (hh : h.Distinct) :
  (f.either h).Distinct
  := nodup_join hf hh

theorem Distinct.andThen (hf : f.Distinct) (hh : h.Distinct) :
  (f.andThen h).Distinct
  := nodup_join hf hh

theorem Distinct.optional (hf : f.Distinct) :
  f.optional.Distinct
  := hf

end FirstSet

namespace Rule

variable {sets : NonterminalId → FirstSet}

mutual

/-- The set of a rule is distinct if those of the nonterminals are. -/
theorem distinct_first (h : ∀ n, (sets n).Distinct) : ∀ r : Rule,
  (r.first sets).Distinct
  | terminal _ t => FirstSet.distinct_singleton t
  | nonterminal _ n => h n
  | unresolved .. => FirstSet.distinct_empty true
  | concat _ rs => distinct_firstSeq h false rs
  | choice _ rs => distinct_firstChoice h rs
  | oneOrMore _ r => distinct_first h r
  | option _ r | zeroOrMore _ r => (distinct_first h r).optional

theorem distinct_firstSeq (h : ∀ n, (sets n).Distinct) : ∀ (passed : Bool) (rs : List Rule),
  (firstSeq sets passed rs).Distinct
  | passed, [] => FirstSet.distinct_empty passed
  | _, r :: rs => by
      rw [firstSeq]
      split
      · apply (distinct_first h r).andThen (distinct_firstSeq h true rs)
      · apply distinct_first h r

theorem distinct_firstChoice (h : ∀ n, (sets n).Distinct) : ∀ rs : List Rule,
  (firstChoice sets rs).Distinct
  | [] => FirstSet.distinct_none
  | r :: rs => (distinct_first h r).either (distinct_firstChoice h rs)

end

end Rule

/-! ### Surveys -/

namespace Survey

variable {s : Survey} {n : NonterminalId}

/-- All finished sets are distinct. -/
def Distinct (s : Survey) : Prop := ∀ p ∈ s.finished, p.2.Distinct

theorem distinct_start :
  start.Distinct
  := List.forall_mem_nil _

theorem Distinct.known (h : s.Distinct) (n : NonterminalId) :
  (s.known n).Distinct
  := by
  rw [Survey.known, find?]
  cases hp : s.finished.find? (·.1 = n) with
  | none => apply FirstSet.distinct_none
  | some p => apply h p (List.mem_of_find?_eq_some hp)

theorem Distinct.finish {f : FirstSet} (h : s.Distinct) (hf : f.Distinct) :
  (s.finish n f).Distinct
  := List.forall_mem_cons.mpr ⟨hf, h⟩

theorem Distinct.noteLeftRecursion (h : s.Distinct) :
  (s.noteLeftRecursion n).Distinct
  := by
  rw [Survey.noteLeftRecursion]
  split <;> exact h

/-- The outcome of a walk: a distinct set, and a survey whose sets are distinct. -/
structure DistinctOutcome (p : FirstSet × Survey) : Prop where
  set : p.1.Distinct
  survey : p.2.Distinct

section

variable {visit : NonterminalId → StateM Survey Unit}

/-- Visits keep the finished sets distinct. -/
def KeepsDistinct (visit : NonterminalId → StateM Survey Unit) : Prop :=
  ∀ n {s : Survey}, s.Distinct → ((visit n).run s).2.Distinct

mutual

theorem distinct_walk (hvisit : KeepsDistinct visit) : ∀ (r : Rule) {s : Survey}, s.Distinct →
  DistinctOutcome ((walk visit r).run s)
  | .terminal _ t, _, hs => ⟨FirstSet.distinct_singleton t, hs⟩
  | .nonterminal id n, s, hs => by
      rw [run_walk_nonterminal id n s]
      have h := hvisit n hs
      exact ⟨h.known n, h⟩
  | .unresolved .., _, hs => ⟨FirstSet.distinct_empty true, hs⟩
  | .concat id rs, s, hs => by
      rw [run_walk_concat id rs s]
      obtain ⟨hset, hsurvey⟩ := distinct_walkSeq hvisit false rs hs
      exact ⟨hset, hsurvey⟩
  | .choice _ rs, _, hs => distinct_walkChoice hvisit rs hs
  | .oneOrMore _ r, _, hs => distinct_walk hvisit r hs
  | .option id r, s, hs => by
      rw [run_walk_option id r s]
      obtain ⟨hset, hsurvey⟩ := distinct_walk hvisit r hs
      exact ⟨hset.optional, hsurvey⟩
  | .zeroOrMore id r, s, hs => by
      rw [run_walk_zeroOrMore id r s]
      obtain ⟨hset, hsurvey⟩ := distinct_walk hvisit r hs
      exact ⟨hset.optional, hsurvey⟩

theorem distinct_walkSeq (hvisit : KeepsDistinct visit) :
    ∀ (passed : Bool) (rs : List Rule) {s : Survey}, s.Distinct →
  DistinctOutcome ((walkSeq visit passed rs).run s)
  | passed, [], _, hs => ⟨FirstSet.distinct_empty passed, hs⟩
  | passed, r :: rs, s, hs => by
      have h := distinct_walk hvisit r hs
      by_cases he : ((walk visit r).run s).1.empty
      · rw [run_walkSeq_of_empty he]
        obtain ⟨hset, hsurvey⟩ := distinct_walkSeq hvisit true rs h.survey
        exact ⟨h.set.andThen hset, hsurvey⟩
      · rwa [run_walkSeq_of_not_empty he]

theorem distinct_walkChoice (hvisit : KeepsDistinct visit) : ∀ (rs : List Rule) {s : Survey},
    s.Distinct →
  DistinctOutcome ((walkChoice visit rs).run s)
  | [], _, hs => ⟨FirstSet.distinct_none, hs⟩
  | r :: rs, s, hs => by
      rw [run_walkChoice_cons]
      have h := distinct_walk hvisit r hs
      obtain ⟨hset, hsurvey⟩ := distinct_walkChoice hvisit rs h.survey
      exact ⟨h.set.either hset, hsurvey⟩

end

theorem KeepsDistinct.forM (hvisit : KeepsDistinct visit) (ns : List NonterminalId) :
    ∀ {s : Survey}, s.Distinct →
  ((ns.forM visit).run s).2.Distinct
  := by
  induction ns with
  | nil => exact id
  | cons n ns ih =>
    intro s hs
    rw [run_forM_cons]
    apply ih (hvisit n hs)

end

theorem keepsDistinct_explore (g : Grammar) (depth : Nat) :
  KeepsDistinct (explore g depth)
  := by
  rw [explore_eq]
  induction depth with
  | zero =>
    intro _ _ hs
    exact hs
  | succ depth ih =>
    intro n s hs
    by_cases hf : (s.find? n).isSome
    · rwa [run_exploreOr_of_finished hf]
    · rw [Option.not_isSome_iff_eq_none] at hf
      by_cases he : n ∈ s.entered
      · rw [run_exploreOr_of_entered hf he]
        apply hs.noteLeftRecursion
      · rw [run_exploreOr_of_new hf he]
        have hentered : (s.enter n).Distinct := hs
        obtain ⟨hset, hsurvey⟩ := distinct_walkChoice ih (g.productions n) hentered
        apply hsurvey.finish hset

theorem distinct_ofGrammar (g : Grammar) :
  (ofGrammar g).Distinct
  := (keepsDistinct_explore g _).forM g.nonterminalIds distinct_start

end Survey

/-! ### The sets of a grammar -/

namespace FirstSets

variable (g : Grammar)

theorem distinct_of (n : NonterminalId) :
  ((ofGrammar g).of n).Distinct
  := by
  by_cases hn : n ∈ g.nonterminalIds
  · rw [of_ofGrammar g hn]
    apply (Survey.distinct_ofGrammar g).known
  · rw [of_ofGrammar_of_notMem g hn]
    apply FirstSet.distinct_none

/-- The FIRST set of a rule of a grammar lists no terminal twice. -/
theorem distinct_ofRule (r : Rule) :
  ((ofGrammar g).ofRule r).Distinct
  := Rule.distinct_first (distinct_of g) r

end FirstSets

end Descent
