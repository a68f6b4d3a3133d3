import Descent.Pattern.Bracket
import Descent.Pattern.Footprint
import Descent.Text.Digit

/-!
# Reading patterns

The notation of patterns: literal characters and escapes, the dot, bracketed classes, groups with or
without a name, flags, alternatives, and greedy or lazy repetitions.  `Pattern.read` gives the
pattern of a text or the first thing that is wrong with it.  The notation may be nested to a certain
depth, and the pattern must not be too large.
-/

namespace Descent

namespace Pattern

/-! ### Repetitions -/

/-- Reads a decimal number, with blanks around it. -/
def readCount (f : Flags) (cs : List Char) : Except PatternError (Nat × List Char) :=
  let (digits, rest) := f.takeWhile Text.isAsciiDigit (cs.dropWhile Text.isBlank)
  let value := Text.decimalValue digits
  if digits.isEmpty ∨ Nat.pow 2 32 ≤ value then .error .repetitionCount
  else .ok (value, (f.skip rest).dropWhile Text.isBlank)

/-- Reads the bounds of a repetition after its opening brace, up to its closing brace. -/
def readBounds (f : Flags) (cs : List Char) :
    Except PatternError (Nat × Option Nat × List Char) := do
  let (least, rest) ← readCount f (f.skip cs)
  let (most, rest) ← (match rest with
    | ',' :: rest =>
      match f.skip rest with
      | '}' :: _ => .ok (none, f.skip rest)
      | [] => .error .repetitionUnclosed
      | rest => do let (n, rest) ← readCount f rest; pure (some n, rest)
    | rest => .ok (some least, rest) : Except PatternError (Option Nat × List Char))
  match rest with
  | '}' :: rest =>
    if most.any (· < least) then .error .repetitionCount else pure (least, most, f.skip rest)
  | _ => .error .repetitionUnclosed

/-- Reads the question mark that makes a repetition lazy. -/
def readGreed (f : Flags) : List Char → Bool × List Char
  | '?' :: cs => (f.swapGreed, cs)
  | cs => (!f.swapGreed, cs)

/-! ### Sequences and alternatives -/

/-- A pattern and the depth to which its notation is nested. -/
structure Piece where
  pattern : Pattern
  depth : Nat
  deriving DecidableEq, Repr

/-- One level more than the deepest of several pieces, and none for less than two. -/
def depthAround (depths : List Nat) : Nat :=
  let deepest := depths.foldl max 0
  if 1 < depths.length then deepest + 1 else deepest

/-- The parts of a sequence read so far, the last first; a setting of flags is no piece. -/
abbrev Parts := List (Option Piece)

namespace Parts

/-- The piece of a sequence. -/
def piece (parts : Parts) : Piece where
  pattern := sequence (parts.reverse.filterMap fun p? => p?.map Piece.pattern)
  depth := depthAround (parts.map fun p? => (p?.map Piece.depth).getD 0)

/-- Repeats the last part of a sequence. -/
def repeatLast (parts : Parts) (least : Nat) (most : Option Nat) (greedy : Bool) :
    Except PatternError Parts :=
  match parts with
  | some p :: parts => .ok (some ⟨p.pattern.repeated least most greedy, p.depth + 1⟩ :: parts)
  | _ => .error .repetitionMissing

end Parts

/-- The piece of a choice between alternatives. -/
def Piece.ofAlternatives (ps : List Piece) : Piece :=
  ⟨choice (ps.map Piece.pattern), depthAround (ps.map Piece.depth)⟩

/-! ### Groups -/

/-- The groups opened so far: their number, and the names of those that have one. -/
structure Groups where
  count : Nat
  names : List String

/-- Whether a character may stand in the name of a group. -/
def continuesName (c : Char) : Bool :=
  Text.isAlphanumeric c || c == '_' || c == '.' || c == '[' || c == ']'

/-- Reads the name of a group up to its closing angle. -/
def readName (cs : List Char) : Except PatternError (String × List Char) :=
  let name := cs.takeWhile (· ≠ '>')
  match name, cs.dropWhile (· ≠ '>') with
  | c :: _, _ :: rest =>
    if (Text.isLetter c || c == '_') && name.all continuesName then .ok (String.ofList name, rest)
    else .error .groupName
  | _, _ => .error .groupName

/-- What an opening parenthesis opens. -/
inductive Opening where
  /-- A group with the flags inside of it, and its number if its match is kept. -/
  | group (f : Flags) (number? : Option Nat) (groups : Groups) (rest : List Char)
  /-- Flags for what follows in the group around it. -/
  | flags (f : Flags) (rest : List Char)

/-- Opens a group whose match is kept. -/
def openNumbered (f : Flags) (groups : Groups) (names : List String) (rest : List Char) : Opening :=
  .group f (some (groups.count + 1)) ⟨groups.count + 1, names⟩ rest

/-- Opens a group with a name that no group has yet. -/
def openNamed (f : Flags) (groups : Groups) (cs : List Char) : Except PatternError Opening := do
  let (name, rest) ← readName cs
  if name ∈ groups.names then .error .groupNameDuplicate
  else pure (openNumbered f groups (name :: groups.names) rest)

/-- Reads what follows an opening parenthesis. -/
def readOpening (f : Flags) (groups : Groups) (cs : List Char) : Except PatternError Opening :=
  match f.skip cs with
  | '?' :: '=' :: _ | '?' :: '!' :: _ | '?' :: '<' :: '=' :: _ | '?' :: '<' :: '!' :: _ =>
    .error .lookAround
  | '?' :: 'P' :: '<' :: cs => openNamed f groups cs
  | '?' :: '<' :: cs => openNamed f groups cs
  | '?' :: cs => do
    match ← readFlags f [] cs with
    | (inner, ':' :: rest) => pure (.group inner none groups rest)
    | (inner, rest) =>
      if cs.head? = some ')' then .error .repetitionMissing else pure (.flags inner rest.tail)
  | cs => .ok (openNumbered f groups groups.names cs)

/-- The piece of a group around a piece. -/
def Piece.grouped (p : Piece) (number? : Option Nat) : Piece :=
  ⟨number?.elim p.pattern (.group · p.pattern), p.depth + 1⟩

/-! ### Patterns -/

/-- The pattern of a literal character. -/
def literal (f : Flags) (c : Char) : Pattern := .set ((CharSet.single c).foldIf f.ignoreCase)

/-- The pattern of a dot. -/
def dot (f : Flags) : Pattern := .set (if f.dotAll then .all else (CharSet.single '\n').compl)

/-- The pattern of an escape. -/
def Escaped.pattern (f : Flags) : Escaped → Pattern
  | .char c => literal f c
  | .set s => .set s
  | .look l => .look l

/-- What is left of a text after a pattern: the groups opened, and the rest. -/
structure Remainder where
  groups : Groups
  rest : List Char

/-- Reads alternatives up to the end of their group.  `done` holds the alternatives read so far,
the last first, and `parts` what is read of the next one.  Every step reads a character. -/
def readAlternatives : (fuel : Nat) → Flags → Groups → (done : List Piece) → Parts → List Char →
    Except PatternError (Piece × Remainder)
  | 0, _, _, _, _, _ => .error .tooLarge
  | fuel + 1, f, groups, done, parts, cs =>
    let add (p : Pattern) (rest : List Char) :=
      readAlternatives fuel f groups done (some ⟨p, 0⟩ :: parts) rest
    let repeatLast (least : Nat) (most : Option Nat) (cs : List Char) := do
      let (greedy, rest) := readGreed f cs
      readAlternatives fuel f groups done (← parts.repeatLast least most greedy) rest
    match f.skip cs with
    | [] => .ok (.ofAlternatives (parts.piece :: done).reverse, ⟨groups, []⟩)
    | ')' :: cs => .ok (.ofAlternatives (parts.piece :: done).reverse, ⟨groups, ')' :: cs⟩)
    | '|' :: cs => readAlternatives fuel f groups (parts.piece :: done) [] cs
    | '(' :: cs => do
      match ← readOpening f groups cs with
      | .flags inner rest => readAlternatives fuel inner groups done (none :: parts) rest
      | .group inner number? groups rest =>
        match ← readAlternatives fuel inner groups [] [] rest with
        | (p, ⟨groups, ')' :: rest⟩) =>
          readAlternatives fuel f groups done (some (p.grouped number?) :: parts) rest
        | _ => .error .groupUnclosed
    | '[' :: cs => do
      let (n, rest) ← readClass fuel f cs
      readAlternatives fuel f groups done (some ⟨.set n.set, n.depth⟩ :: parts) rest
    | '?' :: cs => repeatLast 0 (some 1) cs
    | '*' :: cs => repeatLast 0 none cs
    | '+' :: cs => repeatLast 1 none cs
    | '{' :: cs => do
      let _ ← parts.repeatLast 0 none true
      let (least, most, rest) ← readBounds f cs
      repeatLast least most rest
    | '\\' :: cs => do
      let (e, rest) ← readEscape f cs
      add (e.pattern f) rest
    | '.' :: cs => add (dot f) cs
    | '^' :: cs => add (.look (if f.multiLine then .lineStart else .textStart)) cs
    | '$' :: cs => add (.look (if f.multiLine then .lineEnd else .textEnd)) cs
    | c :: cs => add (literal f c) cs

/-- The depth to which the notation of a pattern may be nested. -/
def depthLimit : Nat := 250

/-- The pattern that a text denotes. -/
def read (text : String) (ignoreCase : Bool) : Except PatternError Pattern := do
  let cs := text.toList
  let (p, remainder) ←
    readAlternatives (2 * cs.length + 2) (.initial ignoreCase) ⟨0, []⟩ [] [] cs
  if !remainder.rest.isEmpty then .error .groupUnopened
  else if depthLimit < p.depth then .error .nestedTooDeeply
  else if p.pattern.fits then pure p.pattern
  else .error .tooLarge

/-- The text with every character escaped that has a meaning in patterns. -/
def escape (text : String) : String :=
  String.ofList (text.toList.flatMap fun c =>
    if c ∈ "\\.+*?()|[]\x7b\x7d^$#&-~".toList then ['\\', c] else [c])

end Pattern

end Descent
