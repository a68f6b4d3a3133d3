import Descent.Grammar

/-!
# Working out FIRST sets

The sets of a grammar are found in one walk over its rules.  The walk enters a nonterminal when it
first meets it, finishes its set, and keeps it.  A nonterminal that is met while it is entered is
left recursive: it is noted, and contributes nothing at that place.  At most all nonterminals are
entered at once, which bounds how deep the walk goes.

The outcome is kept with the grammar, so that it is worked out once between two changes.
-/

namespace Descent

/-- What a walk over the rules of a grammar has found so far. -/
structure Survey where
  /-- The sets of the nonterminals that are finished, the last first. -/
  finished : List (NonterminalId × FirstSet)
  /-- The nonterminals that are entered and not finished. -/
  entered : List NonterminalId
  /-- The sequence that last required a terminal. -/
  origins : OrderedMap TerminalId RuleId
  /-- The nonterminals found to be left recursive, in order. -/
  leftRecursive : List NonterminalId
  deriving DecidableEq, Repr

namespace Survey

/-- The survey before the walk. -/
def start : Survey := ⟨[], [], .empty, []⟩

/-- The set of a nonterminal that is finished. -/
def find? (s : Survey) (n : NonterminalId) : Option FirstSet :=
  (s.finished.find? (·.1 = n)).map Prod.snd

/-- What a nonterminal contributes: nothing until it is finished. -/
def known (s : Survey) (n : NonterminalId) : FirstSet := (s.find? n).getD .none

/-- Enters a nonterminal. -/
def enter (s : Survey) (n : NonterminalId) : Survey := { s with entered := n :: s.entered }

/-- Finishes a nonterminal. -/
def finish (s : Survey) (n : NonterminalId) (f : FirstSet) : Survey :=
  { s with finished := (n, f) :: s.finished, entered := s.entered.erase n }

/-- Notes that a nonterminal is left recursive. -/
def noteLeftRecursion (s : Survey) (n : NonterminalId) : Survey :=
  if n ∈ s.leftRecursive then s else { s with leftRecursive := s.leftRecursive ++ [n] }

/-- Notes that a sequence requires terminals. -/
def require (s : Survey) (id : RuleId) (ts : List TerminalId) : Survey :=
  { s with origins := ts.foldl (fun m t => m.insert t id) s.origins }

variable (visit : NonterminalId → StateM Survey Unit)

mutual

/-- Walks over a rule and finds its set; `visit` walks over the rules of a nonterminal first. -/
def walk : Rule → StateM Survey FirstSet
  | .terminal _ t => pure ⟨[t], false⟩
  | .nonterminal _ n => do
    visit n
    return (← get).known n
  | .unresolved .. => pure ⟨[], true⟩
  | .concat id rs => do
    let f ← walkSeq false rs
    modify (·.require id f.terminals)
    return f
  | .choice _ rs => walkChoice rs
  | .oneOrMore _ r => walk r
  | .option _ r | .zeroOrMore _ r => return (← walk r).optional

/-- Walks over a sequence, up to the first part that cannot be empty.  `passed` says whether the
sequence begins after parts that may all be empty. -/
def walkSeq (passed : Bool) : List Rule → StateM Survey FirstSet
  | [] => pure ⟨[], passed⟩
  | r :: rs => do
    let f ← walk r
    if f.empty then return f.andThen (← walkSeq true rs) else return f

/-- Walks over alternatives. -/
def walkChoice : List Rule → StateM Survey FirstSet
  | [] => pure .none
  | r :: rs => do
    let f ← walk r
    return f.either (← walkChoice rs)

end

/-- Walks over the rules of a nonterminal, unless it is finished or entered; at most `depth`
nonterminals are entered inside of each other. -/
def explore (g : Grammar) : (depth : Nat) → NonterminalId → StateM Survey Unit
  | 0, _ => pure ()
  | depth + 1, n => do
    let s ← get
    if (s.find? n).isSome then return
    else if n ∈ s.entered then set (s.noteLeftRecursion n)
    else
      set (s.enter n)
      let f ← walkChoice (explore g depth) (g.nonterminal n).alternatives
      modify (·.finish n f)

/-- The survey after the walk over all rules of a grammar. -/
def ofGrammar (g : Grammar) : Survey :=
  let walkAll := g.nonterminalIds.forM (explore g (g.nonterminals.size + 1))
  (walkAll.run start).2

end Survey

/-- The FIRST sets of a grammar. -/
def FirstSets.ofGrammar (g : Grammar) : FirstSets :=
  let s := Survey.ofGrammar g
  { sets := g.nonterminalIds.map s.known
    origins := s.origins
    leftRecursions := s.leftRecursive.map fun n =>
      ⟨(g.nonterminal n).name, (g.nonterminal n).span⟩ }

namespace Grammar

/-- The FIRST sets of a grammar: those kept with it, or else worked out. -/
def firstSets (g : Grammar) : FirstSets := g.cached.getD (.ofGrammar g)

/-- The grammar with its FIRST sets kept. -/
def keepFirstSets (g : Grammar) : Grammar := { g with cached := some g.firstSets }

/-- The warnings given when the FIRST sets are asked for: those of the walk, if it is taken. -/
def firstWarnings (g : Grammar) : List Warning :=
  if g.cached.isSome then [] else g.firstSets.warnings

@[simp]
theorem firstSets_keepFirstSets (g : Grammar) :
  g.keepFirstSets.firstSets = g.firstSets
  := rfl

end Grammar

end Descent
