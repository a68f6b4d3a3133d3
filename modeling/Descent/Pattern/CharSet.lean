import Descent.Text.Blank
import Descent.Text.Folding
import Descent.Text.Word
import Descent.Text.Digit

/-!
# Sets of characters

The sets that a pattern names by single characters, ranges and properties, and those built from
them by the operations of bracketed classes.  A set is the list of its ranges, so that two sets
with the same members are equal.
-/

namespace Descent.Pattern

/-- A set of characters. -/
abbrev CharSet := Text.Ranges

namespace CharSet

/-- Whether a character belongs to a set. -/
def mem (s : CharSet) (c : Char) : Bool := s.covers c.toNat

/-- The set without members. -/
def none : CharSet := []

/-- All characters. -/
def all : CharSet := [(0, Text.Ranges.last)]

/-- The characters from one to another. -/
def range (low high : Char) : CharSet := [(low.toNat, high.toNat)]

/-- The set of a single character. -/
def single (c : Char) : CharSet := range c c

/-- The only character of a set. -/
def only? : CharSet → Option Char
  | [(low, high)] => if low = high then some (Char.ofNat low) else Option.none
  | _ => Option.none

/-- Whether all members of a set are characters of ASCII. -/
def isAscii (s : CharSet) : Bool := List.all s (·.2 < 0x80)

/-- The decimal digits. -/
def digit : CharSet := Text.digitRanges

/-- The blanks. -/
def blank : CharSet := Text.blankRanges

/-- The characters of words. -/
def word : CharSet := Text.wordRanges

/-- The union of ranges between characters. -/
def ofRanges (rs : List (Char × Char)) : CharSet :=
  rs.foldl (fun s r => s.union (range r.1 r.2)) none

/-- The set closed under change of case. -/
def folded (s : CharSet) : CharSet :=
  Text.variantClasses.foldl
    (fun t cs => if cs.any s.covers then cs.foldl (fun t c => t.insert (c, c)) t else t) s

/-- The set, closed under change of case if `ignoreCase` holds. -/
def foldIf (ignoreCase : Bool) (s : CharSet) : CharSet := if ignoreCase then s.folded else s

/-- The set, or all other characters if `negated` holds. -/
def complIf (negated : Bool) (s : CharSet) : CharSet := if negated then s.compl else s

end CharSet

end Descent.Pattern
