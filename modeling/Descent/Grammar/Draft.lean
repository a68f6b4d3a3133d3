import Descent.Grammar

/-!
# Drafts

A grammar in the making, with the diagnostics found on the way.
-/

namespace Descent

/-- A grammar in the making and what is wrong with its description. -/
structure Draft where
  grammar : Grammar
  diagnostics : List Diagnostic

namespace Draft

/-- The draft without symbols. -/
def empty : Draft := ⟨.empty, []⟩

/-- Adds diagnostics. -/
def add (d : Draft) (ds : List Diagnostic) : Draft := { d with diagnostics := d.diagnostics ++ ds }

/-- Adds the diagnostic of a problem. -/
def report (d : Draft) (p : Problem) (span : Span) : Draft := d.add [p.located span]

/-- Changes the grammar. -/
def update (d : Draft) (f : Grammar → Grammar) : Draft := { d with grammar := f d.grammar }

end Draft

end Descent
