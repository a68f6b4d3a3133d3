import Descent.Engine
import Descent.Pattern.Graph
import Descent.Pattern.Reading

/-!
# An engine

A pattern is read once and kept as a graph.  Two things that patterns may hold elsewhere are left
out: sets of characters that have a property of Unicode (`\p` and `\P`), and the flags that search
bytes in place of characters (`u` taken back) and end lines in two characters (`R`).  A text with
one of them is refused.
-/

namespace Descent.Pattern

/-- The graph of the pattern that a text denotes. -/
def graph (text : String) (ignoreCase : Bool) : Except PatternError Graph :=
  (read text ignoreCase).map Graph.ofPattern

/-- The graph of the pattern that a text denotes at the start of the rest of an input. -/
def compile (text : String) (ignoreCase : Bool) : Except PatternError Graph :=
  graph (Engine.anchoredText text) ignoreCase

/-- The engine that lays patterns out as graphs.  It does not say what is wrong with a text. -/
instance engine : Engine where
  compile text ignoreCase := ((graph text ignoreCase).map Graph.matcher).mapError fun _ => ""
  escape := escape

end Descent.Pattern
