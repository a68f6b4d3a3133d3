import Descent.Text.Ranges

/-!
# Blanks

A blank is a character with the white-space property: the space, the tab, the line ends, and the
spaces of various widths.  `trim` drops blanks from both ends of a text.
-/

namespace Descent.Text

/-- The blank code points. -/
def blankRanges : Ranges :=
  [(0x9, 0xD), (0x20, 0x20), (0x85, 0x85), (0xA0, 0xA0), (0x1680, 0x1680), (0x2000, 0x200A),
    (0x2028, 0x2029), (0x202F, 0x202F), (0x205F, 0x205F), (0x3000, 0x3000)]

/-- Whether a character is blank. -/
def isBlank (c : Char) : Bool := blankRanges.covers c.toNat

/-- The text from its first character that is not blank on. -/
def trimLeft (cs : List Char) : List Char := cs.dropWhile isBlank

/-- The text up to its last character that is not blank. -/
def trimRight (cs : List Char) : List Char := (cs.reverse.dropWhile isBlank).reverse

/-- The text without the blanks at its ends. -/
def trim (cs : List Char) : List Char := trimRight (trimLeft cs)

end Descent.Text
