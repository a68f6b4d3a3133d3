import Descent.Grammar

/-!
# Printed grammars

Rules are printed with the names of their symbols, operators behind parentheses.  A grammar is
printed as a description: its terminals with their patterns, then a line for every rule.
-/

namespace Descent.Grammar

mutual

/-- The printed form of a rule. -/
def ruleText (g : Grammar) : Rule → String
  | .terminal _ t => g.symbolText (.terminal t)
  | .nonterminal _ n => g.symbolText (.nonterminal n)
  | .unresolved _ name => name
  | .concat _ [] => " <- WARNING: ConcatRule contains no subrules"
  | .concat _ rs => " ".intercalate (ruleTexts g rs)
  | .choice _ [] => "() <- WARNING: ChoiceRule contains no subrules"
  | .choice _ rs => "(" ++ " | ".intercalate (ruleTexts g rs) ++ ")"
  | .option _ r => "(" ++ ruleText g r ++ ")?"
  | .zeroOrMore _ r => "(" ++ ruleText g r ++ ")*"
  | .oneOrMore _ r => "(" ++ ruleText g r ++ ")+"

/-- The printed forms of several rules. -/
def ruleTexts (g : Grammar) : List Rule → List String
  | [] => []
  | r :: rs => ruleText g r :: ruleTexts g rs

end

/-- The line that declares a terminal. -/
def terminalLine (g : Grammar) (t : TerminalId) : String :=
  let skip := if t ∈ g.skip then "[Skip] " else ""
  skip ++ (g.terminal t).name ++ " -> \"" ++ (g.terminal t).pattern ++ "\";\n"

/-- The lines of a nonterminal, one for each of its rules. -/
def nonterminalLines (g : Grammar) (n : Nonterminal) : List String :=
  match n.alternatives with
  | [] => [n.name ++ " -> ;\n"]
  | rs => rs.map fun r => n.name ++ " -> " ++ ruleText g r ++ ";\n"

/-- The printed form of a grammar. -/
def text (g : Grammar) : String :=
  String.join <|
    "//Terminals:\n" :: g.terminalIds.map (terminalLine g) ++
    "\n" :: "//Production lines:\n" :: g.nonterminals.toList.flatMap (nonterminalLines g)

/-- The names of symbols, each after a blank. -/
def spacedTexts (g : Grammar) (ts : List TerminalId) : String :=
  String.join (ts.map fun t => " " ++ g.symbolText (.terminal t))

/-- The line that names the sequence which required a terminal, if the grammar has the sequence. -/
def originLine? (g : Grammar) (t : TerminalId) (id : RuleId) : Option String :=
  (g.findRule? id).map fun (n, r) =>
    g.symbolText (.terminal t) ++ ": " ++ g.symbolText (.nonterminal n) ++ " -> " ++
      ruleText g r ++ "\n"

/-- The lines that name the sequences which required terminals, if there are any. -/
def originLines (g : Grammar) (fs : FirstSets) : List String :=
  match fs.origins.entries with
  | [] => []
  | es => "\n" :: "Required by:\n" :: es.filterMap fun (t, id) => g.originLine? t id

/-- The report of the FIRST sets, in the form of a comment. -/
def firstReport (g : Grammar) (fs : FirstSets) : String :=
  let firsts := g.nonterminalIds.map fun n =>
    (g.nonterminal n).name ++ ":" ++ g.spacedTexts (fs.of n).terminals ++ "\n"
  String.join <|
    "/*\n" :: "First symbols:\n" :: firsts ++
    "\n" :: "Skip symbols:\n" :: g.spacedTexts g.skip :: "\n" :: g.originLines fs ++
    ["*/\n"]

end Descent.Grammar
