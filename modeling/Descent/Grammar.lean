import Descent.Directive
import Descent.Engine
import Descent.FirstSets
import Descent.Text.Digit
import Descent.Text.Uppercase

/-!
# Grammars

A grammar owns its terminals and nonterminals, the names they go by, and the rules of the
nonterminals.  A symbol is added under a name that no other symbol has, or not at all.  A literal
is a terminal that matches one text exactly; each text has one, with a name made up from the text.

The FIRST sets are kept once they have been worked out, and dropped by every change that could make
them wrong.
-/

namespace Descent

/-- A parameter of an attribute. -/
inductive Param where
  | int (value : Int)
  | str (value : String)
  /-- A parameter that has no value. -/
  | invalid
  deriving DecidableEq, Repr

/-- The attributes of a symbol, by name. -/
abbrev Attributes := OrderedMap String (List Param)

/-- A terminal: a name and a pattern. -/
structure Terminal where
  name : String
  niceName? : Option String
  /-- The pattern as written. -/
  pattern : String
  /-- Searches the rest of an input for the pattern. -/
  matcher : Matcher
  ignoreCase : Bool
  literal : Bool
  attributes : Attributes
  span : Span
  deriving Inhabited

namespace Terminal

/-- A terminal without attributes. -/
def plain (name pattern : String) (matcher : Matcher) (span : Span) : Terminal :=
  { name, niceName? := none, pattern, matcher, ignoreCase := false, literal := false,
    attributes := .empty, span }

/-- The name that messages show. -/
def niceName (t : Terminal) : String := t.niceName?.getD t.name

/-- The terminal as rules show it: literals in quotes. -/
def text (t : Terminal) : String := if t.literal then s!"'{t.niceName}'" else t.name

end Terminal

/-- A nonterminal: a name and the rules to choose from. -/
structure Nonterminal where
  name : String
  alternatives : List Rule
  code : Option String
  attributes : Attributes
  span : Span
  deriving Repr, Inhabited

namespace Nonterminal

/-- A nonterminal without rules. -/
def bare (name : String) (span : Span) : Nonterminal :=
  { name, alternatives := [], code := none, attributes := .empty, span }

/-- The symbols that the rules refer to. -/
def symbols (n : Nonterminal) : List Symbol := Rule.symbolsAll n.alternatives

end Nonterminal

/-- A grammar, with its FIRST sets if they have been worked out since the last change. -/
structure Grammar where
  terminals : Array Terminal
  nonterminals : Array Nonterminal
  names : OrderedMap String Symbol
  literals : OrderedMap String TerminalId
  /-- The terminals that are skipped between tokens. -/
  skip : List TerminalId
  /-- The terminal whose text can change the line and the file. -/
  fileAndLine : Option TerminalId
  directives : Directives
  /-- The index of the next rule node. -/
  nextRule : Nat
  cached : Option FirstSets

/-- The name of the nonterminal that parsing starts with. -/
def startName : String := "Start"

namespace Grammar

/-- The grammar without symbols. -/
def empty : Grammar :=
  { terminals := #[], nonterminals := #[], names := .empty, literals := .empty, skip := [],
    fileAndLine := none, directives := .empty, nextRule := 0, cached := none }

/-! ### Looking up -/

/-- A terminal of the grammar. -/
def terminal (g : Grammar) (t : TerminalId) : Terminal := g.terminals.getD t.index default

/-- A nonterminal of the grammar. -/
def nonterminal (g : Grammar) (n : NonterminalId) : Nonterminal :=
  g.nonterminals.getD n.index default

/-- The ids of the terminals, in order. -/
def terminalIds (g : Grammar) : List TerminalId := (List.range g.terminals.size).map TerminalId.mk

/-- The ids of the nonterminals, in order. -/
def nonterminalIds (g : Grammar) : List NonterminalId :=
  (List.range g.nonterminals.size).map NonterminalId.mk

/-- The symbol of a name. -/
def lookup? (g : Grammar) (name : String) : Option Symbol := g.names.get? name

/-- The terminal of a name. -/
def terminal? (g : Grammar) (name : String) : Option TerminalId :=
  match g.lookup? name with
  | some (.terminal t) => some t
  | _ => none

/-- The nonterminal of a name. -/
def nonterminal? (g : Grammar) (name : String) : Option NonterminalId :=
  match g.lookup? name with
  | some (.nonterminal n) => some n
  | _ => none

/-- The terminal that matches a text exactly. -/
def literal? (g : Grammar) (text : String) : Option TerminalId := g.literals.get? text

/-- The nonterminal that parsing starts with. -/
def start? (g : Grammar) : Option NonterminalId := g.nonterminal? startName

/-- The name of a symbol. -/
def nameOf (g : Grammar) : Symbol → String
  | .terminal t => (g.terminal t).name
  | .nonterminal n => (g.nonterminal n).name

/-- The symbol as rules show it. -/
def symbolText (g : Grammar) : Symbol → String
  | .terminal t => (g.terminal t).text
  | .nonterminal n => (g.nonterminal n).name

/-- The rule node with a given id, and the nonterminal whose rules it belongs to. -/
def findRule? (g : Grammar) (id : RuleId) : Option (NonterminalId × Rule) :=
  g.nonterminalIds.findSome? fun n =>
    (Rule.findAll? id (g.nonterminal n).alternatives).map fun r => (n, r)

/-! ### Changing -/

/-- Drops the FIRST sets. -/
def invalidate (g : Grammar) : Grammar := { g with cached := none }

/-- Adds a terminal under its name, unless the name is taken. -/
def addTerminal? (g : Grammar) (t : Terminal) : Option (TerminalId × Grammar) :=
  if g.names.contains t.name then none
  else
    let id := ⟨g.terminals.size⟩
    some (id, { g.invalidate with
      terminals := g.terminals.push t
      names := g.names.insert t.name (.terminal id) })

/-- Adds a nonterminal under its name, unless the name is taken. -/
def addNonterminal? (g : Grammar) (n : Nonterminal) : Option (NonterminalId × Grammar) :=
  if g.names.contains n.name then none
  else
    let id := ⟨g.nonterminals.size⟩
    some (id, { g.invalidate with
      nonterminals := g.nonterminals.push n
      names := g.names.insert n.name (.nonterminal id) })

/-- Changes a terminal. -/
def updateTerminal (g : Grammar) (t : TerminalId) (f : Terminal → Terminal) : Grammar :=
  { g.invalidate with terminals := g.terminals.modify t.index f }

/-- Changes a nonterminal. -/
def updateNonterminal (g : Grammar) (n : NonterminalId) (f : Nonterminal → Nonterminal) : Grammar :=
  { g.invalidate with nonterminals := g.nonterminals.modify n.index f }

/-- Makes a rule node with an id that no other node has. -/
def makeRule (g : Grammar) (node : RuleId → Rule) : Rule × Grammar :=
  (node ⟨g.nextRule⟩, { g with nextRule := g.nextRule + 1 })

/-- Adds a rule to a nonterminal. -/
def addAlternative (g : Grammar) (n : NonterminalId) (r : Rule) : Grammar :=
  g.updateNonterminal n fun nt => { nt with alternatives := nt.alternatives ++ [r] }

/-- Skips a terminal between tokens. -/
def addSkip (g : Grammar) (t : TerminalId) : Grammar :=
  if t ∈ g.skip then g else { g with skip := g.skip ++ [t] }

/-- Lets the text of a terminal change the line and the file. -/
def setFileAndLine (g : Grammar) (t : TerminalId) : Grammar := { g with fileAndLine := some t }

/-- Changes the directives. -/
def updateDirectives (g : Grammar) (f : Directives → Directives) : Grammar :=
  { g with directives := f g.directives }

/-! ### Literals -/

/-- The names of single punctuation characters. -/
def punctuationName? : Char → Option String
  | '+' => some "PLUS"
  | '-' => some "MINUS"
  | '*' => some "STAR"
  | '/' => some "SLASH"
  | '%' => some "PERCENT"
  | '^' => some "CARET"
  | '~' => some "TILDE"
  | '!' => some "BANG"
  | '?' => some "QUESTION"
  | '=' => some "EQUALS"
  | '<' => some "LT"
  | '>' => some "GT"
  | '&' => some "AMP"
  | '|' => some "PIPE"
  | '(' => some "LPAREN"
  | ')' => some "RPAREN"
  | '[' => some "LBRACKET"
  | ']' => some "RBRACKET"
  | '{' => some "LBRACE"
  | '}' => some "RBRACE"
  | ',' => some "COMMA"
  | ';' => some "SEMICOLON"
  | ':' => some "COLON"
  | '.' => some "DOT"
  | '#' => some "HASH"
  | '@' => some "AT"
  | '$' => some "DOLLAR"
  | _ => none

/-- Whether a text has the form of an identifier. -/
def isIdentifier : List Char → Bool
  | [] => false
  | c :: cs =>
    (Text.isLetter c || c == '_') && cs.all fun d => Text.isAlphanumeric d || d == '_'

/-- A name for the terminal that matches a text: the text in capitals if it is an identifier, the
name of a punctuation character, or a number. -/
def literalName (text : String) (index : Nat) : String :=
  if isIdentifier text.toList then Text.uppercase text
  else
    match text.toList with
    | [c] => (punctuationName? c).getD s!"TOKEN{index}"
    | _ => s!"TOKEN{index}"

/-- The name with as many low lines behind it as it takes to be free, at most `bound`. -/
def freshName (taken : String → Bool) : (bound : Nat) → String → String
  | 0, name => name
  | bound + 1, name => if taken name then freshName taken bound (name ++ "_") else name

/-- Why a literal cannot be added. -/
inductive LiteralError where
  | pattern (reason : String)
  | nameTaken
  deriving DecidableEq, Repr

/-- Adds the terminal that matches a text exactly, under a name that is neither taken nor reserved.
A text that has a terminal keeps it. -/
def addLiteral [Engine] (g : Grammar) (text : String) (reserved : List String) (span : Span) :
    Except LiteralError (TerminalId × Grammar) :=
  match g.literal? text with
  | some t => .ok (t, g)
  | none =>
    let taken := fun name => g.names.contains name || reserved.contains name
    let bound := g.names.entries.length + reserved.length
    let name := freshName taken bound (literalName text g.literals.entries.length)
    match Engine.anchored (Engine.escape text) false with
    | .error reason => .error (.pattern reason)
    | .ok matcher =>
      let t := { Terminal.plain name (Engine.escape text) matcher span with
        niceName? := some text
        literal := true }
      match g.addTerminal? t with
      | none => .error .nameTaken
      | some (id, g) => .ok (id, { g with literals := g.literals.insert text id })

end Grammar

end Descent
