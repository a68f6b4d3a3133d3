import Descent.Pattern.Basic
import Descent.Text.ByteRange
import Std.Data.HashMap

/-!
# Footprints of patterns

A pattern can be laid out as an automaton on the bytes of a text, once to read forwards and once to
read backwards.  Every state of an automaton takes 32 bytes, an edge of a state that branches 4, and
one of a state that tells bytes apart 8.  `Pattern.fits` holds if each of the two automata takes at
most ten mebibytes.

A repetition is laid out as often as its bounds say.  Within a set of characters states are shared:
a table of fixed size remembers them by a hash, and a state that falls on the place of another in
the table drives it out.
-/

namespace Descent

namespace Pattern

/-- The states of a layout, and the bytes that their edges take. -/
structure Footprint where
  states : Nat
  edges : Nat
  deriving DecidableEq, Repr

namespace Footprint

/-- The footprint of nothing. -/
def zero : Footprint := ⟨0, 0⟩

/-- Two footprints together. -/
def add (a b : Footprint) : Footprint := ⟨a.states + b.states, a.edges + b.edges⟩

/-- The bytes that a layout takes. -/
def bytes (a : Footprint) : Nat := 32 * a.states + a.edges

/-- The bytes that a layout may take. -/
def limit : Nat := 10485760

end Footprint

/-- A step of laying out, which fails beyond the limit. -/
abbrev Laying := StateT Footprint Option

namespace Laying

/-- Lays out several states at once. -/
def lay (a : Footprint) : Laying Unit := fun b =>
  let c := b.add a
  if c.bytes ≤ Footprint.limit then some ((), c) else none

/-- Lays out a state whose edges take the given number of bytes; its number. -/
def state (edges : Nat) : Laying Nat := fun b => do
  let (_, c) ← lay ⟨1, edges⟩ b
  pure (b.states, c)

/-- Lays out edges of states that branch. -/
def branches (n : Nat) : Laying Unit := lay ⟨0, 4 * n⟩

/-- Lays out the edge that leaves a part.  Only a part that ends in a state that branches takes
room for it. -/
def leave (branching : Bool) : Laying Unit := if branching then branches 1 else pure ()

/-- Lays out a part `n` times behind another one.  Both the answer and the part tell whether the
last state branches. -/
def chain (part : Laying Bool) : Nat → Bool → Laying Bool
  | 0, branching, a => some (branching, a)
  | n + 1, branching, a =>
    match (do leave branching; part : Laying Bool) a with
    | some (branching, a) => chain part n branching a
    | none => none

end Laying

/-! ### Sets of characters -/

open Text (ByteRange)

/-- The direction in which an automaton reads. -/
inductive Direction where
  | forwards
  | backwards
  deriving DecidableEq, Repr

/-- The edges of a state that tells bytes apart, each with the state it leads to. -/
abbrev ByteEdges := List (ByteRange × Nat)

/-- A table that remembers states by their edges.  At each place there is one. -/
abbrev StateTable := Std.HashMap Nat (ByteEdges × Nat)

namespace StateTable

/-- The hash of numbers: each is mixed into what has been made of those before it. -/
def hash (ns : List Nat) : UInt64 :=
  ns.foldl (fun h n => (h ^^^ n.toUInt64) * 1099511628211) 14695981039346656037

/-- The place of numbers in a table of the given size. -/
def place (size : Nat) (ns : List Nat) : Nat := (hash ns).toNat % size

/-- The state at a place, if it has the given edges. -/
def find? (t : StateTable) (place : Nat) (edges : ByteEdges) : Option Nat :=
  match t[place]? with
  | some (es, state) => if es = edges then some state else none
  | none => none

/-- The state with the given edges, laid out unless the table remembers it. -/
def share (t : StateTable) (place room : Nat) (edges : ByteEdges) : Laying (Nat × StateTable) :=
  match t.find? place edges with
  | some state => pure (state, t)
  | none => do
    let state ← Laying.state room
    pure (state, t.insert place (edges, state))

end StateTable

/-- The number of places in the table for automata that read forwards. -/
def forwardPlaces : Nat := 10000

/-- The number of places in the table for automata that read backwards. -/
def backwardPlaces : Nat := 1000

/-- Lays out sequences of at most `n` byte ranges that all lead to one state, so that sequences with
a common front share it; the state that they start from. -/
def laySequences (goal : Nat) :
    (n : Nat) → List (List ByteRange) → StateTable → Laying (Nat × StateTable)
  | 0, _, t => pure (goal, t)
  | n + 1, seqs, t => do
    let groups := seqs.splitBy fun a b => a.head? == b.head?
    let (edges, t) ← groups.foldlM (fun (edges, t) group => do
      match group with
      | (r :: tail) :: _ =>
        let (next, t) ←
          if tail.isEmpty then pure (goal, t) else laySequences goal n (group.map List.tail) t
        pure ((r, next) :: edges, t)
      | _ => pure (edges, t)) ([], t)
    let edges := edges.reverse
    let place := StateTable.place forwardPlaces
      (edges.flatMap fun ((low, high), next) => [low, high, next])
    t.share place (8 * edges.length) edges

/-- Lays out a sequence of byte ranges to be read from its end, from the goal to the state that
reads its last range. -/
def layReversed (state : Nat) : List ByteRange → StateTable → Laying (Nat × StateTable)
  | [], t => pure (state, t)
  | r :: rs, t => do
    let (state, t) ← t.share (StateTable.place backwardPlaces [state, r.1, r.2]) 0 [(r, state)]
    layReversed state rs t

/-- The sequences of byte ranges of a set. -/
def CharSet.sequences (s : CharSet) : List (List ByteRange) :=
  s.flatMap fun r => ByteRange.sequences r.1 r.2

/-- Lays out a set of characters. -/
def laySet (d : Direction) (s : CharSet) : Laying Unit := do
  match s.only? with
  | some c => Laying.lay ⟨c.utf8Size, 0⟩
  | none =>
    if s.isAscii then Laying.lay ⟨2, 8 * s.length⟩
    else
      match d with
      | .forwards =>
        let goal ← Laying.state 0
        let _ ← laySequences goal 4 s.sequences ∅
      | .backwards =>
        let _ ← Laying.state 0
        let goal ← Laying.state 0
        let _ ← s.sequences.foldlM (fun t rs => do
          let (_, t) ← layReversed goal rs t
          Laying.branches 1
          pure t) (∅ : StateTable)

/-! ### Alternative words -/

/-- The words that follow the start of several words read in turn, in portions: a portion ends where
a word is over.  Words that are over at the very start count once. -/
def portions (words : List (List UInt8)) : List (List (List UInt8)) :=
  let (closed, portion) := words.foldl (fun (closed, portion) word =>
    if !word.isEmpty then (closed, portion ++ [word])
    else if portion.isEmpty && !closed.isEmpty && closed.all List.isEmpty then (closed, portion)
    else (closed ++ [portion], [])) ([], [])
  closed ++ [portion]

/-- What follows each of the bytes that words begin with. -/
def tails (words : List (List UInt8)) : List (List (List UInt8)) :=
  (words.filterMap List.head?).eraseDups.map fun b =>
    (words.filter (·.head? == some b)).map List.tail

/-- The footprint of a tree of words of at most `n` bytes that share their fronts. -/
def treeFootprint : (n : Nat) → List (List UInt8) → Footprint
  | 0, _ => .zero
  | n + 1, words =>
    let portions := portions words
    let filled := portions.filter (!·.isEmpty)
    let below := filled.map fun portion =>
      let tails := tails portion
      (tails.filter (·.any (!·.isEmpty))).foldl (fun a ws => a.add (treeFootprint n ws))
        ⟨1, if tails.length = 1 then 0 else 8 * tails.length⟩
    below.foldl .add ⟨1, 4 * (filled.length + (portions.length - 1))⟩

/-- The bytes of the words that are the alternatives of a choice. -/
def words? (p : Pattern) : Option (List (List UInt8)) :=
  p.alternatives.mapM fun p => p.word?.map (·.flatMap String.utf8EncodeChar)

/-- Lays out a choice between words. -/
def layWords (d : Direction) (words : List (List UInt8)) : Laying Unit :=
  let words := if d = .backwards then words.map List.reverse else words
  let longest := (words.map List.length).foldl max 0
  Laying.lay ((treeFootprint longest words).add ⟨1, 0⟩)

/-! ### Patterns -/

/-- Where a part stands: by itself, second in a choice, or further back in it. -/
inductive Standing where
  | alone
  | second
  | later
  deriving DecidableEq, Repr

/-- Ties a part to the choice that it stands in.  The states at which a choice splits and joins come
behind its second alternative.  Tells whether the last state branches. -/
def Standing.tie (branching : Bool) : Standing → Laying Bool
  | alone => pure branching
  | second => do
    Laying.lay ⟨2, 0⟩
    Laying.branches 2
    Laying.leave branching
    pure false
  | later => do
    Laying.branches 1
    Laying.leave branching
    pure false

open Laying in
/-- Lays out a pattern; tells whether the last state branches. -/
def layOut (d : Direction) : Pattern → Standing → Laying Bool
  | empty, s => do
    lay ⟨1, 0⟩
    s.tie false
  | look _, s => do
    lay ⟨1, 0⟩
    s.tie false
  | set cs, s => do
    laySet d cs
    s.tie false
  | seq p q, s => do
    let (first, last) :=
      match d with
      | .forwards => (layOut d p .alone, layOut d q .alone)
      | .backwards => (layOut d q .alone, layOut d p .alone)
    leave (← first)
    s.tie (← last)
  | alt p q, .alone =>
    match words? (alt p q) with
    | some words => do
      layWords d words
      pure false
    | none => do
      leave (← layOut d p .alone)
      layOut d q .second
  | alt p q, s => do
    let _ ← s.tie (← layOut d p .alone)
    layOut d q .later
  | rep p 0 (some 1) _, s => do
    lay ⟨1, 0⟩
    let branching ← layOut d p .alone
    lay ⟨1, 0⟩
    branches 2
    leave branching
    s.tie false
  | rep p 0 none _, s =>
    if p.consumes then do
      lay ⟨1, 0⟩
      leave (← layOut d p .alone)
      branches 1
      s.tie true
    else do
      leave (← layOut d p .alone)
      lay ⟨3, 0⟩
      branches 4
      s.tie false
  | rep p (n + 1) none _, s => do
    leave (← chain (layOut d p .alone) (n + 1) false)
    lay ⟨1, 0⟩
    branches 1
    s.tie true
  | rep p least (some most) _, s => do
    if least = most then s.tie (← chain (layOut d p .alone) least false)
    else
      let before ← (do
        if least = 0 then lay ⟨1, 0⟩
        chain (layOut d p .alone) least false)
      lay ⟨1, 0⟩
      let optional : Laying Bool := do
        lay ⟨1, 0⟩
        let branching ← layOut d p .alone
        branches 2
        pure branching
      leave (← chain optional (most - least) before)
      s.tie false
  | group _ p, s =>
    match d with
    | .forwards => do
      lay ⟨1, 0⟩
      leave (← layOut d p .alone)
      lay ⟨1, 0⟩
      s.tie false
    | .backwards => do s.tie (← layOut d p .alone)

open Laying in
/-- Lays out the whole automaton of a pattern: what it may read before a match, the match, and the
end.  An automaton that reads forwards keeps the ends of the match. -/
def layWhole (p : Pattern) (d : Direction) : Laying Unit := do
  let anchored :=
    match d with
    | .forwards => p.begins .textStart
    | .backwards => p.ends .textEnd
  if anchored then lay ⟨1, 0⟩ else lay ⟨3, 16⟩
  if d = .forwards then lay ⟨1, 0⟩
  leave (← layOut d p .alone)
  if d = .forwards then lay ⟨1, 0⟩
  lay ⟨1, 0⟩

/-- Whether the automata of a pattern fit into the limit. -/
def fits (p : Pattern) : Bool :=
  (p.layWhole .forwards .zero).isSome && (p.layWhole .backwards .zero).isSome

end Pattern

end Descent
