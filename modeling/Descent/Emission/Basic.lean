import Descent.Grammar
import Descent.Program
import Descent.Template

/-!
# What is emitted

A parser is emitted as up to three artifacts: the scanner, the parser and the parse tree.  Each
comes from a template, whose slots a language fills with code for a grammar and its program.
-/

namespace Descent

namespace Emission

/-- Whether code is emitted for distribution, or to be run inside a host that debugs it. -/
inductive Mode where
  | release
  | debug
  deriving DecidableEq, Repr

/-- What code is emitted for. -/
structure Context where
  grammar : Grammar
  program : Program
  mode : Mode

namespace Context

/-- The namespace that the grammar asks for. -/
def namespaceName (c : Context) : String :=
  (c.grammar.directives.value? .overall "Namespace").getD ""

/-- The terminals, in order. -/
def terminals (c : Context) : List Terminal := c.grammar.terminals.toList

/-- The nonterminals, in order. -/
def nonterminals (c : Context) : List Nonterminal := c.grammar.nonterminals.toList

/-- The names of terminals. -/
def namesOf (c : Context) (ts : List TerminalId) : List String :=
  ts.map fun t => (c.grammar.terminal t).name

end Context

end Emission

/-- The files that are emitted. -/
inductive Artifact.Kind where
  | scanner
  | parser
  | parseTree
  deriving DecidableEq, Repr

namespace Artifact.Kind

/-- All artifacts, in the order in which they are emitted. -/
def all : List Kind := [scanner, parser, parseTree]

/-- The directive that is about an artifact. -/
def directive : Kind → Directive.Kind
  | scanner => .scanner
  | parser => .parser
  | parseTree => .parseTree

/-- The file an artifact is written to when nothing is said about it. -/
def defaultFileName (l : Language) (k : Kind) : String :=
  match l, k with
  | .rust, scanner => "scanner.rs"
  | .rust, parser => "parser.rs"
  | .rust, parseTree => "parse_tree.rs"
  | .csharp, scanner => "Scanner.cs"
  | .csharp, parser => "Parser.cs"
  | .csharp, parseTree => "ParseTree.cs"

/-- The file that holds the template of an artifact. -/
def templateFile (l : Language) (k : Kind) : String := k.defaultFileName l ++ ".tpl"

end Artifact.Kind

/-- An emitted file. -/
structure Artifact where
  kind : Artifact.Kind
  fileName : String
  text : String
  deriving DecidableEq, Repr

end Descent
