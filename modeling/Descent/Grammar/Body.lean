import Descent.ActionCode
import Descent.Grammar.Declaration

/-!
# Bodies of productions

When all symbols are declared, every production with a rule adds the rule to its nonterminal.  A
name without a symbol stays in the rule and is reported, and so is a reference in the action code to
what is no symbol of the rule.
-/

namespace Descent

namespace Grammar

/-! ### Rules -/

/-- A rule in the making: the counter gives the id of the next node. -/
abbrev Numbered := StateM Nat

/-- Makes a node with the next id. -/
def number (node : RuleId → Rule) : Numbered Rule := fun n => (node ⟨n⟩, n + 1)

/-- The node of a name. -/
def nodeOfName (g : Grammar) (name : String) (id : RuleId) : Rule :=
  match g.lookup? name with
  | some (.terminal t) => .terminal id t
  | some (.nonterminal n) => .nonterminal id n
  | none => .unresolved id name

/-- The node of a literal text. -/
def nodeOfLiteral (g : Grammar) (text : String) (id : RuleId) : Rule :=
  match g.literal? text with
  | some t => .terminal id t
  | none => .unresolved id text

mutual

/-- The rule of an expression.  Operands are numbered from left to right, and before their
operator. -/
def ruleOf (g : Grammar) : Description.Expr → Numbered Rule
  | .ident name => number (g.nodeOfName name.value)
  | .literal text => number (g.nodeOfLiteral text.value)
  | .choice es => do
    let rs ← rulesOf g es
    number (.choice · rs)
  | .concat es => do
    let rs ← rulesOf g es
    number (.concat · rs)
  | .option e => do
    let r ← ruleOf g e
    number (.option · r)
  | .zeroOrMore e => do
    let r ← ruleOf g e
    number (.zeroOrMore · r)
  | .oneOrMore e => do
    let r ← ruleOf g e
    number (.oneOrMore · r)

/-- The rules of several expressions. -/
def rulesOf (g : Grammar) : List Description.Expr → Numbered (List Rule)
  | [] => pure []
  | e :: es => do
    let r ← ruleOf g e
    let rs ← rulesOf g es
    pure (r :: rs)

end

mutual

/-- The diagnostics of names without a symbol.  One that an operator applies to has a number of its
own. -/
def undeclared (g : Grammar) (operand : Bool) : Description.Expr → List Diagnostic
  | .ident name =>
    if (g.lookup? name.value).isSome then []
    else if operand then [(Problem.undeclaredOperand name.value).located name.span]
    else [(Problem.undeclaredSymbol name.value).located name.span]
  | .literal _ => []
  | .choice es | .concat es => undeclaredAll g es
  | .option e | .zeroOrMore e | .oneOrMore e => undeclared g true e

/-- The diagnostics of names without a symbol in several expressions. -/
def undeclaredAll (g : Grammar) : List Description.Expr → List Diagnostic
  | [] => []
  | e :: es => undeclared g false e ++ undeclaredAll g es

end

/-! ### Action code -/

/-- The diagnostics of references to what is no symbol of a rule. -/
def unmatched (g : Grammar) (r : Rule) (code : Located String) : List Diagnostic :=
  let names := r.symbols.map g.nameOf
  (ActionCode.namesAfter [] (ActionCode.pieces code.value.toList)).filterMap fun (before, name) =>
    if String.ofList name ∈ names then none
    else some ((Problem.unmatchedVariable (String.ofList name)).located
      (code.span.within before name))

/-- Gives a nonterminal an action code. -/
def setCode (g : Grammar) (n : NonterminalId) (code : String) : Grammar :=
  g.updateNonterminal n fun x => { x with code := some code }

end Grammar

namespace Draft

/-- Adds a rule, and the action code if there is one, to a nonterminal. -/
def define (d : Draft) (n : NonterminalId) (e : Description.Expr) (code : Option (Located String)) :
    Draft :=
  let g := d.grammar
  let (rule, next) := (g.ruleOf e).run g.nextRule
  let d := (d.update fun g => { g with nextRule := next }).add (g.undeclared false e)
  let d := match code with
    | none => d
    | some c => (d.update (·.setCode n c.value)).add (g.unmatched rule c)
  d.update (·.addAlternative n rule)

/-- Adds the rule of a production to its nonterminal. -/
def defineProduction (d : Draft) (p : Description.Production) : Draft :=
  match p.rhs, d.grammar.nonterminal? p.name.value with
  | .rule e, some n => d.define n e p.code
  | _, _ => d

end Draft

/-- The grammar of a description, unless no rule declares where to start, and what is wrong with the
description. -/
def Grammar.ofDescription [Engine] (o : Options) (fs : FileSystem) (desc : Description) :
    Option Grammar × List Diagnostic :=
  let d := Draft.ofDeclarations o fs desc
  match d.grammar.start? with
  | none => (none, d.diagnostics ++ [Problem.startRequired.unlocated])
  | some _ =>
    let d := desc.productions.foldl Draft.defineProduction d
    (some d.grammar, d.diagnostics)

end Descent
