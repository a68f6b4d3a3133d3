import Descent.Rule

/-!
# FIRST sets

The FIRST set of a rule holds the terminals that can come first in what the rule derives, in the
order in which they are found, and says whether the rule may derive nothing.  Given the sets of all
nonterminals, the set of a rule follows by recursion on the rule.
-/

namespace Descent

/-- The terminals that can come first, without repetition, and whether nothing may come. -/
structure FirstSet where
  terminals : List TerminalId
  empty : Bool
  deriving DecidableEq, Repr, Inhabited

namespace FirstSet

/-- The set of a rule that derives nothing at all. -/
def none : FirstSet := ⟨[], false⟩

/-- Adds the terminals that are new to a list. -/
def join (ts us : List TerminalId) : List TerminalId := ts ++ us.filter (· ∉ ts)

@[simp]
theorem mem_join {t : TerminalId} {ts us : List TerminalId} :
  t ∈ join ts us ↔ t ∈ ts ∨ t ∈ us
  := by
  simp only [join, List.mem_append, List.mem_filter, decide_eq_true_eq]
  by_cases h : t ∈ ts <;> simp [h]

theorem nodup_join {ts us : List TerminalId} (ht : ts.Nodup) (hu : us.Nodup) :
  (join ts us).Nodup
  := by
  rw [join, List.nodup_append]
  refine ⟨ht, hu.filter _, ?_⟩
  intro a ha b hb hab
  subst hab
  simp only [List.mem_filter, decide_eq_true_eq] at hb
  exact hb.2 ha

/-- Either of two rules, the first found first. -/
def either (f g : FirstSet) : FirstSet := ⟨join f.terminals g.terminals, f.empty || g.empty⟩

/-- A rule and then another one, when the first may be passed over. -/
def andThen (f g : FirstSet) : FirstSet := ⟨join f.terminals g.terminals, g.empty⟩

/-- A rule that may be left out. -/
def optional (f : FirstSet) : FirstSet := { f with empty := true }

end FirstSet

namespace Rule

variable (sets : NonterminalId → FirstSet)

mutual

/-- The FIRST set of a rule, given those of the nonterminals.  A name that no symbol has stands for
nothing. -/
def first : Rule → FirstSet
  | terminal _ t => ⟨[t], false⟩
  | nonterminal _ n => sets n
  | unresolved .. => ⟨[], true⟩
  | concat _ rs => firstSeq false rs
  | choice _ rs => firstChoice rs
  | oneOrMore _ r => first r
  | option _ r | zeroOrMore _ r => (first r).optional

/-- The FIRST set of a sequence: of its parts up to the first that cannot be empty.  `passed` says
whether the sequence begins after parts that may all be empty. -/
def firstSeq (passed : Bool) : List Rule → FirstSet
  | [] => ⟨[], passed⟩
  | r :: rs => if (first r).empty then (first r).andThen (firstSeq true rs) else first r

/-- The FIRST set of a choice. -/
def firstChoice : List Rule → FirstSet
  | [] => .none
  | r :: rs => (first r).either (firstChoice rs)

end

/-- The FIRST set of a rule, leaving out the first `start` parts of a sequence. -/
def firstFrom (start : Nat) : Rule → FirstSet
  | concat _ rs => firstSeq sets false (rs.drop start)
  | r => first sets r

end Rule

end Descent
