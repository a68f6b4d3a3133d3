import Descent.Pattern.Escape

/-!
# Bracketed classes

A class lists characters, ranges, escapes, named classes of ASCII and further classes in brackets;
what it lists makes one set.  Operations combine the sets before and behind them, from left to
right.  The depth to which the notation is nested is counted along with the set: a level for the
brackets, one for an operation, and one for a list of several items.
-/

namespace Descent.Pattern

/-- A set and the depth to which its notation is nested. -/
structure Nested where
  set : CharSet
  depth : Nat
  deriving DecidableEq, Repr

/-- The items of a class read so far: their union, their number, and the greatest depth of one. -/
structure Items where
  set : CharSet
  count : Nat
  depth : Nat
  deriving DecidableEq, Repr

namespace Items

/-- No items. -/
def none : Items := ⟨.none, 0, 0⟩

/-- Adds an item. -/
def add (items : Items) (n : Nested) : Items :=
  ⟨items.set.union n.set, items.count + 1, max items.depth n.depth⟩

/-- Adds a character. -/
def addChar (items : Items) (c : Char) : Items := items.add ⟨.single c, 0⟩

/-- The items as one. -/
def nested (items : Items) : Nested :=
  ⟨items.set, if 1 < items.count then items.depth + 1 else items.depth⟩

end Items

/-- The classes of ASCII characters that have a name. -/
def namedClasses : List (String × CharSet) :=
  [("alnum", .ofRanges [('0', '9'), ('A', 'Z'), ('a', 'z')]),
    ("alpha", .ofRanges [('A', 'Z'), ('a', 'z')]),
    ("ascii", .ofRanges [('\x00', '\x7f')]),
    ("blank", .ofRanges [('\t', '\t'), (' ', ' ')]),
    ("cntrl", .ofRanges [('\x00', '\x1f'), ('\x7f', '\x7f')]),
    ("digit", .ofRanges [('0', '9')]),
    ("graph", .ofRanges [('!', '~')]),
    ("lower", .ofRanges [('a', 'z')]),
    ("print", .ofRanges [(' ', '~')]),
    ("punct", .ofRanges [('!', '/'), (':', '@'), ('[', '\x60'), ('\x7b', '~')]),
    ("space", .ofRanges [('\t', '\r'), (' ', ' ')]),
    ("upper", .ofRanges [('A', 'Z')]),
    ("word", .ofRanges [('0', '9'), ('A', 'Z'), ('_', '_'), ('a', 'z')]),
    ("xdigit", .ofRanges [('0', '9'), ('A', 'F'), ('a', 'f')])]

/-- Reads a named class after its opening bracket, if there is one. -/
def readNamedClass? (f : Flags) : List Char → Option (CharSet × List Char)
  | ':' :: cs =>
    let negated := cs.head? = some '^'
    let cs := if negated then cs.tail else cs
    let name := cs.takeWhile (· ≠ ':')
    match cs.dropWhile (· ≠ ':') with
    | ':' :: ']' :: rest =>
      (namedClasses.lookup (String.ofList name)).map fun s =>
        ((s.foldIf f.ignoreCase).complIf negated, rest)
    | _ => none
  | _ => none

/-- Reads a character or an escape inside of a class. -/
def readClassAtom (f : Flags) : List Char → Except PatternError (Escaped × List Char)
  | [] => .error .classUnclosed
  | '\\' :: cs => readEscape f cs
  | c :: cs => .ok (.char c, cs)

/-- The set of a single item of a class. -/
def Escaped.classSet : Escaped → Except PatternError CharSet
  | .char c => .ok (.single c)
  | .set s => .ok s
  | .look _ => .error .classItem

/-- The character of an end of a range. -/
def Escaped.rangeEnd : Escaped → Except PatternError Char
  | .char c => .ok c
  | _ => .error .classRange

/-- Whether a minus, and what comes after it, make a range of the item before it. -/
def startsRange (f : Flags) : List Char → Bool
  | '-' :: cs => f.peek? cs != some ']' && f.peek? cs != some '-'
  | _ => false

/-- Reads an item or a range inside of a class. -/
def readClassRange (f : Flags) (cs : List Char) : Except PatternError (CharSet × List Char) := do
  let (first, rest) ← readClassAtom f cs
  let rest := f.skip rest
  if startsRange f rest then
    let (second, rest) ← readClassAtom f (f.skip rest.tail)
    let low ← first.rangeEnd
    let high ← second.rangeEnd
    if low ≤ high then pure (.range low high, rest) else .error .classRange
  else pure (← first.classSet, rest)

/-- The operations between the parts of a class. -/
inductive SetOp where
  | inter
  | diff
  | symmDiff
  deriving DecidableEq, Repr

/-- The result of an operation. -/
def SetOp.apply (s t : CharSet) : SetOp → CharSet
  | inter => s.inter t
  | diff => s.diff t
  | symmDiff => s.symmDiff t

/-- The part of a class before an operation, and the operation. -/
abbrev Pending := Option (SetOp × Nested)

/-- Applies a pending operation to the part after it. -/
def Pending.apply (f : Flags) (pending : Pending) (n : Nested) : Nested :=
  match pending with
  | none => n
  | some (op, m) =>
    ⟨op.apply (m.set.foldIf f.ignoreCase) (n.set.foldIf f.ignoreCase), max m.depth n.depth + 1⟩

/-- The operation at the front of a text. -/
def setOp? : List Char → Option (SetOp × List Char)
  | '&' :: '&' :: cs => some (.inter, cs)
  | '-' :: '-' :: cs => some (.diff, cs)
  | '~' :: '~' :: cs => some (.symmDiff, cs)
  | _ => none

/-- Reads what may only stand at the front of a class: the minuses, and a closing bracket that is
no end. -/
def readClassFront (f : Flags) (items : Items) : List Char → Items × List Char
  | '-' :: cs => readClassFront f (items.addChar '-') (f.skip cs)
  | ']' :: cs => if items.count = 0 then (items.addChar ']', f.skip cs) else (items, ']' :: cs)
  | cs => (items, cs)
  termination_by cs => cs.length
  decreasing_by exact Nat.lt_succ_of_le (f.length_skip_le cs)

mutual

/-- Reads a class after its opening bracket; at most `fuel` items and brackets are read. -/
def readClass : (fuel : Nat) → Flags → List Char → Except PatternError (Nested × List Char)
  | 0, _, _ => .error .tooLarge
  | fuel + 1, f, cs => do
    let cs := f.skip cs
    let negated := cs.head? = some '^'
    let cs := if negated then f.skip cs.tail else cs
    let (items, cs) := readClassFront f .none cs
    let (n, rest) ← readClassItems fuel f none items cs
    pure (⟨(n.set.foldIf f.ignoreCase).complIf negated, n.depth + 1⟩, rest)

/-- Reads the items of a class up to its closing bracket. -/
def readClassItems : (fuel : Nat) → Flags → Pending → Items → List Char →
    Except PatternError (Nested × List Char)
  | 0, _, _, _, _ => .error .tooLarge
  | fuel + 1, f, pending, items, cs =>
    match f.skip cs with
    | [] => .error .classUnclosed
    | '[' :: cs =>
      match readNamedClass? f cs with
      | some (s, rest) => readClassItems fuel f pending (items.add ⟨s, 0⟩) rest
      | none => do
        let (n, rest) ← readClass fuel f cs
        readClassItems fuel f pending (items.add n) rest
    | ']' :: cs => .ok (pending.apply f items.nested, cs)
    | cs =>
      match setOp? cs with
      | some (op, rest) =>
        readClassItems fuel f (some (op, pending.apply f items.nested)) .none rest
      | none => do
        let (s, rest) ← readClassRange f cs
        readClassItems fuel f pending (items.add ⟨s, 0⟩) rest

end

end Descent.Pattern
