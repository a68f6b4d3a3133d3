import Descent.Pattern.CharSet

/-!
# Patterns

A pattern is a regular expression over sets of characters, with assertions about the place between
two characters.  Alternatives are ordered, and a repetition is greedy or lazy: of all matches that
begin at a place, the pattern prefers the one that the order of the alternatives puts first.

`sequence`, `choice` and `repeated` build patterns in a plain form: nothing empty stands in a
sequence, alternatives that are single characters are one set, what alternatives begin with in
common stands before them, and what matches the empty text only is repeated at most once.
-/

namespace Descent

namespace Pattern

/-- An assertion about a place in a text. -/
inductive Look where
  | textStart
  | textEnd
  | lineStart
  | lineEnd
  | wordBoundary
  | noWordBoundary
  | wordStart
  | wordEnd
  | wordStartHalf
  | wordEndHalf
  deriving DecidableEq, Repr

/-- Whether an assertion holds between two characters, each of them missing at the ends of the
text. -/
def Look.holds (before after : Option Char) : Look → Bool
  | textStart => before.isNone
  | textEnd => after.isNone
  | lineStart => before.isNone || before == some '\n'
  | lineEnd => after.isNone || after == some '\n'
  | wordBoundary => before.any Text.isWord != after.any Text.isWord
  | noWordBoundary => before.any Text.isWord == after.any Text.isWord
  | wordStart => !before.any Text.isWord && after.any Text.isWord
  | wordEnd => before.any Text.isWord && !after.any Text.isWord
  | wordStartHalf => !before.any Text.isWord
  | wordEndHalf => !after.any Text.isWord

end Pattern

/-- A regular expression with ordered alternatives. -/
inductive Pattern where
  | empty
  | set (s : Pattern.CharSet)
  | look (l : Pattern.Look)
  | seq (p q : Pattern)
  | alt (p q : Pattern)
  | rep (p : Pattern) (least : Nat) (most : Option Nat) (greedy : Bool)
  /-- A group whose match is kept under a number. -/
  | group (number : Nat) (p : Pattern)
  deriving DecidableEq, Repr

namespace Pattern

/-! ### Lengths -/

/-- The least number of characters of a match, if there can be a match. -/
def leastLength? : Pattern → Option Nat
  | empty | look _ => some 0
  | set s => if s.isEmpty then none else some 1
  | seq p q => do pure ((← p.leastLength?) + (← q.leastLength?))
  | alt p q => do pure (min (← p.leastLength?) (← q.leastLength?))
  | rep p least _ _ => p.leastLength?.map (least * ·)
  | group _ p => p.leastLength?

/-- The greatest number of characters of a match, if there is a bound to it. -/
def mostLength? : Pattern → Option Nat
  | empty | look _ => some 0
  | set s => if s.isEmpty then none else some 1
  | seq p q => do pure ((← p.mostLength?) + (← q.mostLength?))
  | alt p q => do pure (max (← p.mostLength?) (← q.mostLength?))
  | rep p _ most _ => do pure ((← most) * (← p.mostLength?))
  | group _ p => p.mostLength?

/-- Whether every match has a character at least. -/
def consumes (p : Pattern) : Bool := p.leastLength?.any (0 < ·)

/-- Whether every match is empty. -/
def isVoid (p : Pattern) : Bool := p.mostLength? == some 0

/-- Whether every match begins with an assertion, seen from the form of the pattern. -/
def begins (l : Look) : Pattern → Bool
  | empty | set _ => false
  | look k => k == l
  | seq p q => p.begins l || (p.isVoid && q.begins l)
  | alt p q => p.begins l && q.begins l
  | rep p least _ _ => least != 0 && p.begins l
  | group _ p => p.begins l

/-- Whether every match ends with an assertion, seen from the form of the pattern. -/
def ends (l : Look) : Pattern → Bool
  | empty | set _ => false
  | look k => k == l
  | seq p q => q.ends l || (q.isVoid && p.ends l)
  | alt p q => p.ends l && q.ends l
  | rep p least _ _ => least != 0 && p.ends l
  | group _ p => p.ends l

/-! ### Sequences -/

/-- The parts of a sequence. -/
def elements : Pattern → List Pattern
  | empty => []
  | seq p q => p.elements ++ q.elements
  | p => [p]

/-- The sequence of the given parts. -/
def ofElements : List Pattern → Pattern
  | [] => empty
  | [p] => p
  | p :: ps => seq p (ofElements ps)

/-- Patterns one after the other. -/
def sequence (ps : List Pattern) : Pattern := ofElements (ps.flatMap elements)

/-- The only character that the pattern matches. -/
def char? : Pattern → Option Char
  | set s => s.only?
  | _ => none

/-- The only text that the pattern matches, unless it is empty. -/
def word? (p : Pattern) : Option (List Char) :=
  match p.elements with
  | [] => none
  | ps => ps.mapM char?

/-- The parts of a sequence with neighbouring characters drawn together. -/
def runs : List Pattern → List (List Pattern)
  | [] => []
  | p :: ps =>
    match runs ps with
    | (q :: qs) :: rest =>
      if p.char?.isSome && q.char?.isSome then (p :: q :: qs) :: rest else [p] :: (q :: qs) :: rest
    | rest => [p] :: rest

/-! ### Alternatives -/

/-- The alternatives of a choice. -/
def alternatives : Pattern → List Pattern
  | alt p q => p.alternatives ++ q.alternatives
  | p => [p]

/-- The choice between the given alternatives. -/
def ofAlternatives : List Pattern → Pattern
  | [] => set .none
  | [p] => p
  | p :: ps => alt p (ofAlternatives ps)

/-- The set that the pattern reads a character of. -/
def set? : Pattern → Option CharSet
  | set s => some s
  | _ => none

/-- The union of alternatives that all read a character, either all of them a single one or none of
them. -/
def union? (ps : List Pattern) : Option CharSet := do
  let sets ← ps.mapM set?
  let singles := sets.filter (·.only?.isSome)
  if singles.isEmpty || singles.length = sets.length then
    pure (sets.foldl Text.Ranges.union .none)
  else none

/-- The choice between alternatives, which is a set if they are united. -/
def united (ps : List Pattern) : Pattern :=
  match ps with
  | [p] => p
  | ps => ((union? ps).map set).getD (ofAlternatives ps)

/-- What two lists begin with in common. -/
def commonFront {α : Type} [DecidableEq α] : List α → List α → List α
  | a :: as, b :: bs => if a = b then a :: commonFront as bs else []
  | _, _ => []

/-- What all alternatives begin with, drawn together by characters, if each of them is a sequence
of several parts. -/
def front (ps : List Pattern) : List (List Pattern) :=
  match ps.map fun p => runs p.elements with
  | [] => []
  | parts :: others =>
    if (parts :: others).all (1 < ·.length) then others.foldl commonFront parts else []

/-- Patterns to choose from, the first preferred. -/
def choice (ps : List Pattern) : Pattern :=
  let ps := ps.flatMap alternatives
  match ps, front ps with
  | [p], _ => p
  | _, [] => united ps
  | _, shared =>
    let rest := ps.map fun p => ofElements ((runs p.elements).drop shared.length).flatten
    sequence (shared.flatten ++ [united (rest.flatMap alternatives)])

/-! ### Repetitions -/

/-- A pattern repeated at least `least` and at most `most` times. -/
def repeated (p : Pattern) (least : Nat) (most : Option Nat) (greedy : Bool) : Pattern :=
  let (least, most) := if p.isVoid then (min least 1, some (min (most.getD 1) 1)) else (least, most)
  if most = some 0 then empty
  else if least = 1 ∧ most = some 1 then p
  else rep p least most greedy

end Pattern

end Descent
