import Mathlib.Data.List.Perm.Subperm
import Mathlib.Logic.Function.Iterate
import Descent.Pattern.Compiled
import Descent.Proofs.Compilation

/-!
# FIRST sets that are kept with a grammar

A grammar is built by operations (`Grammar.Operation`), one of which asks for the FIRST sets and
keeps them.  Operations that change a symbol drop what is kept; the others leave the nonterminals
alone, on which alone the FIRST sets depend.  So what is kept is never stale (`Grammar.fresh_build`),
and an addition whose name is taken changes nothing (`Grammar.Rejects.perform_eq`).  A name for a
literal is never taken, as one that is free is looked for (`Grammar.freshName_free`).
-/

namespace Descent

namespace Grammar

/-! ### Free names -/

/-- A name with low lines behind it. -/
abbrev underscored (name : String) (count : Nat) : String := (· ++ "_")^[count] name

theorem length_underscored (name : String) (count : Nat) :
  (underscored name count).length = name.length + count
  := by
  induction count with
  | zero => rfl
  | succ count ih =>
    rw [underscored, Function.iterate_succ_apply', String.length_append, ih]
    rfl

/-- If the name that is found is taken, so are all that were tried. -/
theorem taken_of_freshName {taken : String → Bool} (bound : Nat) : ∀ {name : String},
    taken (freshName taken bound name) →
  ∀ count ≤ bound, taken (underscored name count)
  := by
  induction bound with
  | zero =>
    intro name h count hc
    rw [Nat.le_zero.mp hc]
    apply h
  | succ bound ih =>
    intro name h count hc
    rw [freshName] at h
    split at h
    case isFalse hname => exact absurd h hname
    case isTrue hname =>
      match count with
      | 0 => apply hname
      | count + 1 => apply ih h count (Nat.le_of_succ_le_succ hc)

/-- The name that is found is free if there are no more names that are taken than low lines may be
added. -/
theorem freshName_free {taken : String → Bool} {names : List String}
    (hnames : ∀ name, taken name → name ∈ names) {bound : Nat} (hbound : names.length ≤ bound)
    (name : String) :
  ¬ taken (freshName taken bound name)
  := by
  intro h
  -- All that were tried are taken, and they are one too many.
  have htried : ((List.range (bound + 1)).map (underscored name)).Nodup := by
    apply List.nodup_range.map
    intro j k hjk
    have hlength := congrArg String.length hjk
    rw [length_underscored, length_underscored] at hlength
    apply Nat.add_left_cancel hlength
  have hsubset : (List.range (bound + 1)).map (underscored name) ⊆ names := by
    intro tried ht
    obtain ⟨count, hc, rfl⟩ := List.mem_map.mp ht
    apply hnames
    apply taken_of_freshName bound h count
    apply Nat.le_of_lt_succ (List.mem_range.mp hc)
  have hlength := (htried.subperm hsubset).length_le
  rw [List.length_map, List.length_range] at hlength
  omega

variable {g g' : Grammar}

theorem contains_names (name : String) :
  g.names.contains name = (g.lookup? name).isSome
  := OrderedMap.contains_eq_isSome _ _

/-- A terminal is added unless its name is taken. -/
theorem addTerminal?_eq_none_iff (t : Terminal) :
  g.addTerminal? t = none ↔ (g.lookup? t.name).isSome
  := by
  rw [← contains_names, addTerminal?]
  split <;> simp_all

/-- A nonterminal is added unless its name is taken. -/
theorem addNonterminal?_eq_none_iff (n : Nonterminal) :
  g.addNonterminal? n = none ↔ (g.lookup? n.name).isSome
  := by
  rw [← contains_names, addNonterminal?]
  split <;> simp_all

/-- Among as many names as a grammar has and as are reserved, one that is neither is found. -/
theorem not_taken_freshName (g : Grammar) (reserved : List String) (name : String) :
  let taken := fun name => g.names.contains name || reserved.contains name
  ¬ taken (freshName taken (g.names.entries.length + reserved.length) name)
  := by
  have hnames : ∀ x, (g.names.contains x || reserved.contains x) = true →
      x ∈ g.names.keys ++ reserved := by
    intro x hx
    rw [Bool.or_eq_true, List.contains_iff_mem, OrderedMap.contains, List.any_eq_true] at hx
    rw [List.mem_append]
    obtain ⟨e, he, hk⟩ | hr := hx
    · left
      rw [← of_decide_eq_true hk]
      apply List.mem_map_of_mem he
    · exact .inr hr
  have hbound : (g.names.keys ++ reserved).length = g.names.entries.length + reserved.length := by
    rw [List.length_append, OrderedMap.keys, List.length_map]
  apply freshName_free hnames hbound.le name

/-- The name of a literal is never taken: one that is free is found. -/
theorem addLiteral_ne_nameTaken [Engine] (text : String) (reserved : List String) (span : Span) :
  g.addLiteral text reserved span ≠ .error .nameTaken
  := by
  intro h
  unfold addLiteral at h
  split at h
  · cases h
  · dsimp only at h
    split at h
    · cases h
    · split at h
      · next hadd =>
        rw [addTerminal?_eq_none_iff, ← contains_names] at hadd
        apply not_taken_freshName g reserved
        exact Bool.or_eq_true_iff.mpr (.inl hadd)
      · cases h

/-! ### Operations -/

/-- An operation on a grammar. -/
inductive Operation where
  | addTerminal (t : Terminal)
  | addNonterminal (n : Nonterminal)
  | addLiteral (text : String) (reserved : List String) (span : Span)
  | makeRule (node : RuleId → Rule)
  | addAlternative (n : NonterminalId) (r : Rule)
  | addSkip (t : TerminalId)
  | setFileAndLine (t : TerminalId)
  | updateDirectives (f : Directives → Directives)
  | updateTerminal (t : TerminalId) (f : Terminal → Terminal)
  | updateNonterminal (n : NonterminalId) (f : Nonterminal → Nonterminal)
  /-- Asks for the FIRST sets, which are kept. -/
  | firstSets

/-- The grammar after an operation.  An addition that is rejected leaves it as it is. -/
def perform [Engine] (g : Grammar) : Operation → Grammar
  | .addTerminal t => (g.addTerminal? t).elim g Prod.snd
  | .addNonterminal n => (g.addNonterminal? n).elim g Prod.snd
  | .addLiteral text reserved span => (g.addLiteral text reserved span).toOption.elim g Prod.snd
  | .makeRule node => (g.makeRule node).2
  | .addAlternative n r => g.addAlternative n r
  | .addSkip t => g.addSkip t
  | .setFileAndLine t => g.setFileAndLine t
  | .updateDirectives f => g.updateDirectives f
  | .updateTerminal t f => g.updateTerminal t f
  | .updateNonterminal n f => g.updateNonterminal n f
  | .firstSets => g.keepFirstSets

/-- The grammar that operations build. -/
def build [Engine] (ops : List Operation) : Grammar := ops.foldl perform .empty

/-- The name that an operation adds, if it is not one to be found. -/
def Operation.name? : Operation → Option String
  | .addTerminal t => some t.name
  | .addNonterminal n => some n.name
  | _ => none

/-- Whether a grammar rejects an operation because a name is taken. -/
def Rejects [Engine] (g : Grammar) : Operation → Prop
  | .addTerminal t => g.addTerminal? t = none
  | .addNonterminal n => g.addNonterminal? n = none
  | .addLiteral text reserved span => g.addLiteral text reserved span = .error .nameTaken
  | _ => False

/-- An addition is rejected if its name is taken. -/
theorem rejects_iff [Engine] (g : Grammar) (op : Operation) :
  g.Rejects op ↔ ∃ name, op.name? = some name ∧ (g.lookup? name).isSome
  := by
  cases op with
  | addTerminal t =>
    rw [Rejects, addTerminal?_eq_none_iff]
    simp [Operation.name?]
  | addNonterminal n =>
    rw [Rejects, addNonterminal?_eq_none_iff]
    simp [Operation.name?]
  | addLiteral text reserved span => simp [Rejects, addLiteral_ne_nameTaken, Operation.name?]
  | _ => simp [Rejects, Operation.name?]

/-- An addition that is rejected changes nothing. -/
theorem Rejects.perform_eq [Engine] {op : Operation} (h : g.Rejects op) :
  g.perform op = g
  := by
  cases op with
  | addTerminal t => rw [perform, show g.addTerminal? t = none from h, Option.elim_none]
  | addNonterminal n => rw [perform, show g.addNonterminal? n = none from h, Option.elim_none]
  | addLiteral text reserved span => exact absurd h (addLiteral_ne_nameTaken text reserved span)
  | _ => cases h

/-! ### Freshness -/

/-- The FIRST sets that are kept with a grammar are its own. -/
def Fresh (g : Grammar) : Prop := ∀ fs ∈ g.cached, fs = FirstSets.ofGrammar g

theorem fresh_of_cached_eq_none (h : g.cached = none) :
  g.Fresh
  := by
  rw [Fresh, h]
  rintro _ ⟨⟩

/-- What is kept stays fresh as long as the nonterminals stay as they are. -/
theorem Fresh.congr (h : g.Fresh) (hcached : g'.cached = g.cached)
    (hnonterminals : g'.nonterminals = g.nonterminals) :
  g'.Fresh
  := by
  rw [Fresh, hcached, FirstSets.ofGrammar_congr hnonterminals]
  apply h

/-- FIRST sets that are asked for are those of the grammar, whether they were kept or not. -/
theorem Fresh.firstSets_eq (h : g.Fresh) :
  g.firstSets = FirstSets.ofGrammar g
  := by
  rw [Grammar.firstSets]
  cases hc : g.cached with
  | none => rfl
  | some fs => apply h fs hc

/-- No operation makes what is kept stale. -/
theorem Fresh.perform [Engine] (h : g.Fresh) (op : Operation) :
  (g.perform op).Fresh
  := by
  cases op with
  | addTerminal t =>
    rw [Grammar.perform, addTerminal?]
    split
    · apply h
    · apply fresh_of_cached_eq_none rfl
  | addNonterminal n =>
    rw [Grammar.perform, addNonterminal?]
    split
    · apply h
    · apply fresh_of_cached_eq_none rfl
  | addLiteral text reserved span =>
    rw [Grammar.perform]
    cases hadd : g.addLiteral text reserved span with
    | error e => apply h
    | ok p =>
      obtain ⟨_, hsame⟩ | ⟨name, g₁, hadds, hadded⟩ := addLiteral_ok hadd
      · rwa [← hsame] at h
      · apply fresh_of_cached_eq_none
        exact (congrArg Grammar.cached hadded).trans hadds.cached
  | makeRule node => exact h.congr rfl rfl
  | addAlternative n r => apply fresh_of_cached_eq_none rfl
  | addSkip t =>
    rw [Grammar.perform, addSkip]
    split
    · apply h
    · exact h.congr rfl rfl
  | setFileAndLine t => exact h.congr rfl rfl
  | updateDirectives f => exact h.congr rfl rfl
  | updateTerminal t f => apply fresh_of_cached_eq_none rfl
  | updateNonterminal n f => apply fresh_of_cached_eq_none rfl
  | firstSets =>
    rintro _ ⟨⟩
    rw [h.firstSets_eq]
    exact FirstSets.ofGrammar_congr rfl

/-- What is kept with a grammar that operations build is fresh. -/
theorem fresh_build [Engine] (ops : List Operation) :
  (build ops).Fresh
  := by
  suffices h : ∀ {g : Grammar}, g.Fresh → (ops.foldl Grammar.perform g).Fresh from
    h (fresh_of_cached_eq_none rfl)
  induction ops with
  | nil => exact id
  | cons op ops ih =>
    intro g h
    apply ih (h.perform op)

/-- However a grammar is built, the FIRST sets that are kept with it are those that would be worked
out, and an addition whose name is taken, and only such a one, is rejected and changes nothing. -/
theorem cached_build [Engine] (ops : List Operation) :
  (∀ fs ∈ (build ops).cached, fs = FirstSets.ofGrammar (build ops)) ∧
    ∀ op, ((build ops).Rejects op ↔
      ∃ name, op.name? = some name ∧ ((build ops).lookup? name).isSome) ∧
      ((build ops).Rejects op → (build ops).perform op = build ops)
  := by
  refine ⟨fresh_build ops, ?_⟩
  intro op
  exact ⟨rejects_iff _ op, Rejects.perform_eq⟩

/-- FIRST sets that are still kept after a terminal is skipped and a name is found to be taken. -/
theorem cached_build_skip :
  let again : Operation := .addNonterminal (.bare "A" .nowhere)
  let ops := [again, .addLiteral "x" [] .nowhere, .addAlternative ⟨0⟩ (.terminal ⟨0⟩ ⟨0⟩),
    .firstSets, .addSkip ⟨0⟩, again]
  (∃ fs, (build ops).cached = some fs ∧ fs.sets = [⟨[⟨0⟩], false⟩] ∧
    fs = FirstSets.ofGrammar (build ops)) ∧
    (build ops).Rejects again ∧ (build ops).perform again = build ops
  := by
  intro again ops
  obtain ⟨hfresh, hrejected⟩ := cached_build ops
  have hcached : (build ops).cached.map (·.sets) = some [⟨[⟨0⟩], false⟩] := by decide +kernel
  have htaken : ((build ops).lookup? "A").isSome := by decide +kernel
  obtain ⟨fs, hfs, hsets⟩ := Option.map_eq_some_iff.mp hcached
  have hrejects := (hrejected again).1.mpr ⟨"A", rfl, htaken⟩
  exact ⟨⟨fs, hfs, hsets, hfresh fs hfs⟩, hrejects, (hrejected again).2 hrejects⟩

end Grammar

end Descent
