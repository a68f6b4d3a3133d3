/-!
# Matchers

A matcher looks for a match in the rest of a text and says how many characters the text has up to
the end of the match.  What scans a text needs to know no more about patterns than this.
-/

namespace Descent

/-- A search in the rest of a text for the end of a match. -/
structure Matcher where
  /-- The number of characters up to the end of the match, if there is one. -/
  find : List Char → Option Nat
  /-- A match ends within the text. -/
  find_le : ∀ {cs : List Char} {n : Nat}, find cs = some n → n ≤ cs.length

namespace Matcher

/-- The matcher that finds nothing. -/
def never : Matcher := ⟨fun _ => none, by simp⟩

instance : Inhabited Matcher := ⟨never⟩

end Matcher

end Descent
