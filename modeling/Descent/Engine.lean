import Descent.Matcher

/-!
# Engines

Patterns are read by an engine, which makes a matcher of each.  Nothing depends on how an engine
does it: what is made with patterns is made with any engine.
-/

namespace Descent

/-- What reads patterns. -/
class Engine where
  /-- The matcher of the pattern that a text denotes, or what is wrong with the text. -/
  compile : (text : String) → (ignoreCase : Bool) → Except String Matcher
  /-- The text with every character escaped that has a meaning in patterns. -/
  escape : String → String

namespace Engine

/-- The text of a pattern, anchored to the start of the text that is searched.  It is put in a group
as it stands, so that one which closes the group escapes the anchor. -/
def anchoredText (text : String) : String := "^(?:" ++ text ++ ")"

/-- The matcher of the pattern that a text denotes at the start of the rest of an input. -/
def anchored [Engine] (text : String) (ignoreCase : Bool) : Except String Matcher :=
  compile (anchoredText text) ignoreCase

end Engine

end Descent
