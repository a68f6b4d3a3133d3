/-!
# Lines of code

Emitted code is made of lines.  Four blanks in front of each make a level of indentation.
-/

namespace Descent

/-- Lines of code, without the line feeds at their ends. -/
abbrev Lines := List String

namespace Lines

/-- Four blanks. -/
def pad : String := "    "

/-- The lines one level deeper. -/
def indent (ls : Lines) : Lines := ls.map (pad ++ ·)

/-- The lines some levels deeper. -/
def indentBy : Nat → Lines → Lines
  | 0, ls => ls
  | n + 1, ls => indent (indentBy n ls)

/-- The lines as text, each with a line feed at its end. -/
def text (ls : Lines) : String := String.join (ls.map (· ++ "\n"))

/-- Leaves out a carriage return at the end of a line. -/
def dropReturn (cs : List Char) : List Char :=
  if cs.getLast? = some '\r' then cs.dropLast else cs

/-- The lines of a text.  A line ends at a line feed, with or without a carriage return before it;
the end of the text ends a line that is not empty. -/
def linesOf (done : List Char) : List Char → List (List Char)
  | [] => if done.isEmpty then [] else [done]
  | c :: cs => if c = '\n' then dropReturn done :: linesOf [] cs else linesOf (done ++ [c]) cs

/-- The lines of a text. -/
def ofText (s : String) : Lines := (linesOf [] s.toList).map String.ofList

/-- The lines some levels deeper, with empty lines left empty. -/
def indentFilled (n : Nat) (ls : Lines) : Lines :=
  ls.map fun l => if l.isEmpty then l else String.join (List.replicate n pad) ++ l

/-- Texts with an empty line between each two. -/
def separated : List Lines → Lines
  | [] => []
  | [ls] => ls
  | ls :: rest => ls ++ "" :: separated rest

end Lines

end Descent
