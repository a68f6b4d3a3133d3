/-!
# Rules

A rule is a tree over the symbols of a grammar: sequences, choices, options and repetitions.  Every
node has an id of its own, so that analyses can name the place where a terminal is required.
Symbols are referred to by their index in the grammar.
-/

namespace Descent

/-- A terminal, by its index. -/
structure TerminalId where
  index : Nat
  deriving DecidableEq, Repr, Inhabited

/-- A nonterminal, by its index. -/
structure NonterminalId where
  index : Nat
  deriving DecidableEq, Repr, Inhabited

/-- A node of a rule. -/
structure RuleId where
  index : Nat
  deriving DecidableEq, Repr, Inhabited

/-- The printed form of a terminal's id. -/
def TerminalId.text (t : TerminalId) : String := s!"t{t.index}"

/-- The printed form of a nonterminal's id. -/
def NonterminalId.text (n : NonterminalId) : String := s!"nt{n.index}"

/-- The printed form of a rule node's id. -/
def RuleId.text (r : RuleId) : String := s!"r{r.index}"

/-- A symbol of either kind. -/
inductive Symbol where
  | terminal (t : TerminalId)
  | nonterminal (n : NonterminalId)
  deriving DecidableEq, Repr

/-- The printed form of a symbol's id. -/
def Symbol.text : Symbol → String
  | terminal t => t.text
  | nonterminal n => n.text

/-- A rule over the symbols of a grammar. -/
inductive Rule where
  | terminal (id : RuleId) (t : TerminalId)
  | nonterminal (id : RuleId) (n : NonterminalId)
  /-- A name that no symbol has. -/
  | unresolved (id : RuleId) (name : String)
  | concat (id : RuleId) (parts : List Rule)
  | choice (id : RuleId) (alternatives : List Rule)
  | option (id : RuleId) (operand : Rule)
  | zeroOrMore (id : RuleId) (operand : Rule)
  | oneOrMore (id : RuleId) (operand : Rule)
  deriving Repr

namespace Rule

/-- The id of the root of a rule. -/
def id : Rule → RuleId
  | terminal id _ | nonterminal id _ | unresolved id _ | concat id _ | choice id _
  | option id _ | zeroOrMore id _ | oneOrMore id _ => id

/-- The rules right below the root. -/
def children : Rule → List Rule
  | concat _ rs | choice _ rs => rs
  | option _ r | zeroOrMore _ r | oneOrMore _ r => [r]
  | terminal .. | nonterminal .. | unresolved .. => []

mutual

/-- The node with a given id, searched from the root down and from left to right. -/
def find? (id : RuleId) (r : Rule) : Option Rule :=
  if r.id = id then some r
  else
    match r with
    | concat _ rs | choice _ rs => findAll? id rs
    | option _ r | zeroOrMore _ r | oneOrMore _ r => find? id r
    | terminal .. | nonterminal .. | unresolved .. => none

/-- The node with a given id in one of several rules, the first that has it. -/
def findAll? (id : RuleId) : List Rule → Option Rule
  | [] => none
  | r :: rs => (find? id r).or (findAll? id rs)

end

mutual

/-- The symbols that a rule refers to, in order of appearance. -/
def symbols : Rule → List Symbol
  | terminal _ t => [.terminal t]
  | nonterminal _ n => [.nonterminal n]
  | unresolved .. => []
  | concat _ rs | choice _ rs => symbolsAll rs
  | option _ r | zeroOrMore _ r | oneOrMore _ r => symbols r

/-- The symbols that several rules refer to. -/
def symbolsAll : List Rule → List Symbol
  | [] => []
  | r :: rs => symbols r ++ symbolsAll rs

end

end Rule

end Descent
