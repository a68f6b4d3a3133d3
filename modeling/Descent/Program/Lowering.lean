import Descent.Grammar.Printing
import Descent.Grammar.Survey
import Descent.Program

/-!
# Programs of grammars

Every nonterminal becomes a routine.  Options, repetitions and choices look at the next token: the
FIRST set of an operand says which terminals select it, and of two alternatives that a terminal
could select, the earlier one is taken.  What no token can select is left out, with a warning.
-/

namespace Descent

namespace Program

variable (g : Grammar) (fs : FirstSets)

/-- The terminals that select a rule. -/
def lookahead (r : Rule) : List TerminalId := (fs.ofRule r).terminals

/-- The terminals that select a rule and none of those before it. -/
def unclaimed (claimed : List TerminalId) (r : Rule) : List TerminalId :=
  (lookahead fs r).filter (· ∉ claimed)

/-- The terminals that are claimed after several rules, each of which claims what is unclaimed when
it is reached. -/
def claimedAfter (claimed : List TerminalId) (rs : List Rule) : List TerminalId :=
  rs.foldl (fun claimed r => claimed ++ unclaimed fs claimed r) claimed

/-- The name of a terminal in a message. -/
def niceName (t : TerminalId) : String := (g.terminal t).niceName

/-- A dispatch on arms that have claimed terminals, or nothing if there are no arms. -/
def dispatchOf (claimed : List TerminalId) (arms : List Arm) : List Stmt :=
  if arms.isEmpty then []
  else [.dispatch claimed arms (expectedList (claimed.map (niceName g)))]

/-- An option of a body, or nothing if no token selects it. -/
def optionalOf (lookahead : List TerminalId) (body : List Stmt) : List Stmt :=
  if lookahead.isEmpty then [] else [.optional lookahead body]

/-- A repetition of a body.  If no token continues it, what is left is the body once or nothing. -/
def loopOf (lookahead : List TerminalId) (body : List Stmt) (atLeastOnce : Bool) : List Stmt :=
  if !lookahead.isEmpty then [.loop lookahead body atLeastOnce]
  else if atLeastOnce then body else []

/-! ### Statements -/

mutual

/-- The statements of a rule. -/
def lower : Rule → List Stmt
  | .terminal _ t => [.expect t (niceName g t)]
  | .nonterminal _ n => [.call n]
  | .unresolved .. => []
  | .concat _ rs => lowerSeq rs
  | .choice _ rs => dispatchOf g (claimedAfter fs [] rs) (lowerArms [] rs)
  | .option _ r => optionalOf (lookahead fs r) (lower r)
  | .zeroOrMore _ r => loopOf (lookahead fs r) (lower r) false
  | .oneOrMore _ r => loopOf (lookahead fs r) (lower r) true

/-- The statements of a sequence. -/
def lowerSeq : List Rule → List Stmt
  | [] => []
  | r :: rs => lower r ++ lowerSeq rs

/-- The arms of alternatives after those that have claimed terminals. -/
def lowerArms (claimed : List TerminalId) : List Rule → List Arm
  | [] => []
  | r :: rs =>
    let ts := unclaimed fs claimed r
    let arms := lowerArms (claimed ++ ts) rs
    if ts.isEmpty then arms else .mk ts (lower r) :: arms

end

/-- The statements of the alternatives of a nonterminal: several are a choice. -/
def lowerAlternatives : List Rule → List Stmt
  | [] => []
  | [r] => lower g fs r
  | rs => dispatchOf g (claimedAfter fs [] rs) (lowerArms g fs [] rs)

/-! ### Warnings -/

/-- The warnings that a rule shares terminals with alternatives before it. -/
def claimWarnings (claimed : List TerminalId) (r : Rule) : List Warning :=
  ((lookahead fs r).filter (· ∈ claimed)).map fun t =>
    .alreadySelects (g.symbolText (.terminal t)) (g.ruleText r)

/-- The warning that no token continues a repetition. -/
def continueWarnings (repetition operand : Rule) : List Warning :=
  if (lookahead fs operand).isEmpty then [.neverContinued (g.ruleText repetition)] else []

mutual

/-- The warnings given while the statements of a rule are made. -/
def warnings : Rule → List Warning
  | .terminal .. | .nonterminal .. | .unresolved .. => []
  | .concat _ rs => seqWarnings rs
  | .choice _ rs => armWarnings [] rs
  | .option id r =>
    if (lookahead fs r).isEmpty then [.neverSelected (g.ruleText (.option id r))] else warnings r
  | .zeroOrMore id r => warnings r ++ continueWarnings g fs (.zeroOrMore id r) r
  | .oneOrMore id r => warnings r ++ continueWarnings g fs (.oneOrMore id r) r

/-- The warnings of a sequence. -/
def seqWarnings : List Rule → List Warning
  | [] => []
  | r :: rs => warnings r ++ seqWarnings rs

/-- The warnings of alternatives after those that have claimed terminals. -/
def armWarnings (claimed : List TerminalId) : List Rule → List Warning
  | [] => []
  | r :: rs =>
    let ts := unclaimed fs claimed r
    claimWarnings g fs claimed r ++ (if ts.isEmpty then [] else warnings r) ++
      armWarnings (claimed ++ ts) rs

end

/-- The warnings of a nonterminal. -/
def routineWarnings (n : Nonterminal) : List Warning :=
  match n.alternatives with
  | [] => [.noAlternatives n.name]
  | [r] => warnings g fs r
  | rs => armWarnings g fs [] rs

end Program

namespace Grammar

/-- The routine of a nonterminal. -/
def routine (g : Grammar) (n : NonterminalId) : Routine :=
  ⟨n, (g.nonterminal n).name,
    Program.lowerAlternatives g g.firstSets (g.nonterminal n).alternatives⟩

/-- The program of a grammar. -/
def program (g : Grammar) : Program := ⟨g.nonterminalIds.map g.routine⟩

/-- The warnings given while the program is made. -/
def programWarnings (g : Grammar) : List Warning :=
  g.nonterminals.toList.flatMap (Program.routineWarnings g g.firstSets)

end Grammar

end Descent
