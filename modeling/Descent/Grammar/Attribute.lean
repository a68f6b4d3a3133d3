import Descent.Description.Syntax
import Descent.Grammar.Draft
import Descent.Text.Ascii

/-!
# Attributes of symbols

Every attribute is kept with its symbol.  `Skip` and `FileAndLine` also change how a text is
scanned; they make sense for terminals only, as `IgnoreCase` and `Color` do.
-/

namespace Descent

/-! ### Parameters -/

/-- The parameter with a value below a bound, or else an invalid one. -/
def Param.below (bound n : Nat) : Param := if n < bound then .int n else .invalid

namespace Description.Param

/-- The value of a parameter.  Integers have 32 bits and hexadecimal numbers 64, with the sign; a
double has no value. -/
def value : Description.Param → Descent.Param
  | integer text => .below (Nat.pow 2 31) (Text.decimalValue text.toList)
  | hex text =>
    let digits := text.toList.drop 2
    if digits.isEmpty then .invalid else .below (Nat.pow 2 63) (Text.hexadecimalValue digits)
  | double _ => .invalid
  | str text => .str text

/-- What is wrong with a parameter. -/
def problem? (p : Description.Param) : Option Problem :=
  match p with
  | str _ => none
  | double _ => some (.invalidParameter p.written)
  | integer _ | hex _ => if p.value = .invalid then some (.parameterRange p.written) else none

end Description.Param

/-! ### Attributes -/

namespace Description.Attribute

/-- The diagnostics of the parameters. -/
def paramDiagnostics (a : Attribute) : List Diagnostic :=
  a.params.filterMap fun p => p.value.problem?.map (·.located p.span)

/-- The diagnostic of an attribute that a nonterminal cannot have. -/
def notAllowed (a : Attribute) : Diagnostic :=
  (Problem.attributeNotAllowed a.name.value).located a.span

/-- The diagnostics of the number and the types of a color's parameters. -/
def colorDiagnostics (a : Attribute) : List Diagnostic :=
  let count :=
    if a.params.length = 1 ∨ a.params.length = 3 then []
    else [(Problem.parameterCount a.name.value).located a.name.span]
  let type := (a.params.find? (·.value.isStr)).toList.map fun p =>
    (Problem.parameterType p.value.written).located p.span
  count ++ type

/-- The diagnostics of an attribute of a terminal or of a nonterminal. -/
def diagnostics (a : Attribute) (ofTerminal : Bool) : List Diagnostic :=
  let terminalOnly := if ofTerminal then [] else [a.notAllowed]
  match a.name.value with
  | "Skip" | "FileAndLine" | "IgnoreCase" => terminalOnly
  | "Color" => terminalOnly ++ a.colorDiagnostics
  | name => [(Problem.unsupportedAttribute name).located a.name.span]

end Description.Attribute

namespace Symbol

/-- Whether a symbol is a terminal. -/
def isTerminal : Symbol → Bool
  | terminal _ => true
  | nonterminal _ => false

end Symbol

namespace Grammar

/-- The attributes of a symbol. -/
def attributes (g : Grammar) : Symbol → Attributes
  | .terminal t => (g.terminal t).attributes
  | .nonterminal n => (g.nonterminal n).attributes

/-- Gives a symbol an attribute. -/
def setAttribute (g : Grammar) (name : String) (params : List Param) : Symbol → Grammar
  | .terminal t =>
    g.updateTerminal t fun x => { x with attributes := x.attributes.insert name params }
  | .nonterminal n =>
    g.updateNonterminal n fun x => { x with attributes := x.attributes.insert name params }

/-- Lets an attribute of a terminal change how a text is scanned. -/
def applyAttribute (g : Grammar) (name : String) : Symbol → Grammar
  | .nonterminal _ => g
  | .terminal t =>
    match name with
    | "Skip" => g.addSkip t
    | "FileAndLine" => (g.addSkip t).setFileAndLine t
    | _ => g

end Grammar

/-- Gives a symbol an attribute, unless it has one of that name. -/
def Draft.addAttribute (s : Symbol) (d : Draft) (a : Description.Attribute) : Draft :=
  let name := a.name.value
  if (d.grammar.attributes s).contains name then d.report (.duplicateAttribute name) a.name.span
  else
    let set := fun g : Grammar =>
      (g.setAttribute name (a.params.map (·.value.value)) s).applyAttribute name s
    (d.update set).add (a.paramDiagnostics ++ a.diagnostics s.isTerminal)

end Descent
