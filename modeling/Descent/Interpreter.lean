import Descent.Grammar
import Descent.ParseTree
import Descent.Program
import Descent.Scanner

/-!
# Running a program on a text

The interpreter runs the routines of a grammar on a text and builds a parse tree.  A routine makes a
node below that of its caller, a consumed token one below that of its routine.  A token that does
not fit is recorded as an error and ends the routine at once; its caller goes on.

A run may never end, so it is given fuel.  With more fuel a run that has ended ends the same way.
-/

namespace Descent

/-- The kinds of tokens and nodes in a run. -/
inductive SymbolKind where
  | root
  | undetermined
  | terminal (t : TerminalId)
  | nonterminal (n : NonterminalId)
  deriving DecidableEq, Repr

instance : TokenKind SymbolKind where
  undetermined := .undetermined
  root := .root

/-- The name of a kind. -/
def Grammar.kindName (g : Grammar) : SymbolKind → String
  | .root => "ParseTree"
  | .undetermined => "_UNDETERMINED_"
  | .terminal t => (g.terminal t).name
  | .nonterminal n => (g.nonterminal n).name

/-- The scanner of a grammar's terminals. -/
def Grammar.scanner (g : Grammar) : Scanner SymbolKind where
  patterns := g.terminalIds.map fun t => (.terminal t, (g.terminal t).matcher)
  skip := g.skip.map .terminal
  fileAndLine := g.fileAndLine.map .terminal

/-- A grammar and the program to run for it. -/
structure Interpreter where
  grammar : Grammar
  program : Program

namespace Interpreter

/-- What a run has come to: how far the text is scanned, and the tree so far. -/
structure State where
  scanner : Scanner.State SymbolKind
  tree : ParseTree SymbolKind
  deriving DecidableEq, Repr

/-- Whether a routine ran up to its end or returned early, and the state after it. -/
abbrev Result := Bool × State

namespace State

/-- Looks at the next token. -/
def lookAhead (i : Interpreter) (s : State) (expected : List TerminalId) :
    Token SymbolKind × State :=
  let (token, scanner) := i.grammar.scanner.lookAhead s.scanner (expected.map .terminal)
  (token, { s with scanner })

/-- Consumes the next token into a node. -/
def consume (i : Interpreter) (s : State) (node : NodeId) (expected : TerminalId) :
    Token SymbolKind × State :=
  let (token, scanner) := i.grammar.scanner.scan s.scanner [.terminal expected]
  (token, ⟨scanner, (s.tree.addToken i.grammar.kindName node token).2⟩)

/-- Opens the node of a routine. -/
def enter (s : State) (parent : NodeId) (r : Routine) : NodeId × State :=
  let token := s.scanner.here (.nonterminal r.nonterminal)
  let (node, tree) := s.tree.create parent token r.name
  (node, { s with tree })

/-- Covers the node of a routine that ran up to its end. -/
def leave (s : State) (parent node : NodeId) : State := { s with tree := s.tree.widen parent node }

/-- Records that a token is not what was expected. -/
def reject (s : State) (code : Nat) (token : Token SymbolKind) (expected : String) : State :=
  { s with tree := s.tree.addError (.unexpected code token.toLexeme expected) }

end State

/-- Whether a token is one of the given terminals. -/
def isOneOf (token : Token SymbolKind) (ts : List TerminalId) : Bool :=
  match token.kind with
  | .terminal t => t ∈ ts
  | _ => false

/-- Goes on after statements that ran up to their end. -/
@[inline]
def andThen (r : Option Result) (next : State → Option Result) : Option Result :=
  match r with
  | some (true, s) => next s
  | r => r

/-- Runs statements in a node.  Without enough fuel there is no result. -/
def exec (i : Interpreter) : (fuel : Nat) → List Stmt → NodeId → State → Option Result
  | 0, _, _, _ => none
  | _ + 1, [], _, s => some (true, s)
  | fuel + 1, .expect t expected :: rest, node, s =>
    let (token, s) := s.consume i node t
    if token.kind = .terminal t then exec i fuel rest node s
    else some (false, s.reject Diagnostic.unexpectedToken token expected)
  | fuel + 1, .call n :: rest, node, s =>
    match i.program.routine? n with
    | none => exec i fuel rest node s
    | some r =>
      let (child, s) := s.enter node r
      match exec i fuel r.body child s with
      | none => none
      | some (true, s) => exec i fuel rest node (s.leave node child)
      | some (false, s) => exec i fuel rest node s
  | fuel + 1, .optional ts body :: rest, node, s =>
    let (token, s) := s.lookAhead i ts
    if isOneOf token ts then andThen (exec i fuel body node s) (exec i fuel rest node)
    else exec i fuel rest node s
  | fuel + 1, .loop ts body true :: rest, node, s =>
    andThen (exec i fuel body node s) (exec i fuel (.loop ts body false :: rest) node)
  | fuel + 1, .loop ts body false :: rest, node, s =>
    let (token, s) := s.lookAhead i ts
    if isOneOf token ts then
      andThen (exec i fuel body node s) (exec i fuel (.loop ts body false :: rest) node)
    else exec i fuel rest node s
  | fuel + 1, .dispatch ts arms expected :: rest, node, s =>
    let (token, s) := s.lookAhead i ts
    match arms.find? fun a => isOneOf token a.terminals with
    | some a => andThen (exec i fuel a.body node s) (exec i fuel rest node)
    | none => some (false, s.reject Diagnostic.noAlternative token (expected ++ "."))

/-- The error of a grammar that has no nonterminal to start with. -/
def noStart : Diagnostic :=
  .unlocated Diagnostic.unexpectedToken s!"The grammar has no '{startName}' production"

/-- Parses a text, unless the fuel runs out. -/
def parse? (i : Interpreter) (fuel : Nat) (text file : String) : Option (ParseTree SymbolKind) :=
  match i.grammar.start? with
  | none => some (ParseTree.single.addError noStart)
  | some start =>
    let s : State := ⟨.start text file, .single⟩
    (exec i fuel [.call start] ParseTree.root s).map fun (_, s) => s.tree

end Interpreter

end Descent
