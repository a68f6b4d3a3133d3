import Descent.Diagnostic
import Descent.FirstSet
import Descent.OrderedMap

/-!
# FIRST sets of a grammar

The outcome of the FIRST analysis: a set for every nonterminal, for every terminal the sequence
that last required it, and the nonterminals that were found to be left recursive.
-/

namespace Descent

/-- A nonterminal that can come first in what it derives itself. -/
structure LeftRecursion where
  name : String
  span : Span
  deriving DecidableEq, Repr

/-- The outcome of the FIRST analysis of a grammar. -/
structure FirstSets where
  /-- The sets of the nonterminals, by index. -/
  sets : List FirstSet
  /-- The sequence that last required a terminal. -/
  origins : OrderedMap TerminalId RuleId
  leftRecursions : List LeftRecursion
  deriving DecidableEq, Repr

namespace FirstSets

/-- The set of a nonterminal. -/
def of (fs : FirstSets) (n : NonterminalId) : FirstSet := fs.sets.getD n.index .none

/-- The set of a rule. -/
def ofRule (fs : FirstSets) (r : Rule) : FirstSet := r.first fs.of

/-- The sequence that last required a terminal. -/
def origin? (fs : FirstSets) (t : TerminalId) : Option RuleId := fs.origins.get? t

/-- The diagnostics of the analysis. -/
def diagnostics (fs : FirstSets) : List Diagnostic :=
  fs.leftRecursions.map fun l => (Problem.leftRecursion l.name).located l.span

/-- The warnings given while the sets are worked out. -/
def warnings (fs : FirstSets) : List Warning := fs.leftRecursions.map fun l => .leftRecursion l.name

end FirstSets

end Descent
