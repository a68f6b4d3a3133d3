import Descent.ActionCode
import Descent.Emission.Basic
import Descent.Emission.Lines
import Descent.Text.Printable

/-!
# Rust code

A parser in Rust has a method for every routine and a function for every nonterminal to evaluate.
Patterns stand in raw strings, messages in quoted ones.
-/

namespace Descent.Emission.Rust

/-! ### Literals -/

/-- The length of the longest run of hash signs in a text. -/
def longestHashRun (run longest : Nat) : List Char → Nat
  | [] => longest
  | c :: cs =>
    if c = '#' then longestHashRun (run + 1) (max longest (run + 1)) cs
    else longestHashRun 0 longest cs

/-- How many hash signs it takes around a raw string. -/
def hashCount (cs : List Char) : Nat := if '"' ∈ cs then longestHashRun 0 0 cs + 1 else 0

/-- A text as a raw string. -/
def rawString (s : String) : String :=
  let hashes := String.ofList (List.replicate (hashCount s.toList) '#')
  "r" ++ hashes ++ "\"" ++ s ++ "\"" ++ hashes

/-- A character in a quoted string.  What does not print, and what would join the character before
it, is given by its number. -/
def quotedChar (c : Char) : List Char :=
  if c = '\x00' then ['\\', '0']
  else if c = '\t' then ['\\', 't']
  else if c = '\r' then ['\\', 'r']
  else if c = '\n' then ['\\', 'n']
  else if c = '\\' ∨ c = '"' then ['\\', c]
  else if Text.isExtending c || !Text.isPrintable c then
    ['\\', 'u', '{'] ++ Nat.toDigits 16 c.toNat ++ ['}']
  else [c]

/-- A text as a quoted string. -/
def quoted (s : String) : String :=
  "\"" ++ String.ofList (s.toList.flatMap quotedChar) ++ "\""

/-! ### Terminals -/

/-- The kind of a symbol with a given name. -/
def kindPath (name : String) : String := "TokenType::" ++ name

/-- A slice of kinds. -/
def kindSlice (c : Context) (ts : List TerminalId) : String :=
  "&[" ++ ", ".intercalate ((c.namesOf ts).map kindPath) ++ "]"

/-- A pattern of kinds. -/
def kindPattern (c : Context) (ts : List TerminalId) : String :=
  " | ".intercalate ((c.namesOf ts).map kindPath)

/-- The condition that the next token is one of several terminals. -/
def lookaheadMatches (c : Context) (ts : List TerminalId) : String :=
  "matches!(self.scanner.look_ahead(" ++ kindSlice c ts ++ ").kind, " ++ kindPattern c ts ++ ")"

/-- The statement that records an error. -/
def recordError (code expected : String) : String :=
  "self.tree.error(ParseError::unexpected(codes::" ++ code ++ ", &tok, " ++ quoted expected ++ "));"

/-! ### Routines -/

mutual

/-- The lines of a statement. -/
def stmtLines (c : Context) : Stmt → Lines
  | .expect t expected =>
    let kind := kindPath (c.grammar.terminal t).name
    ["let tok = self.scanner.scan(&[" ++ kind ++ "]);",
      "self.tree.add_token(node, &tok);",
      "if tok.kind != " ++ kind ++ " \x7b",
      "    " ++ recordError "UNEXPECTED_TOKEN" expected,
      "    return;",
      "\x7d"]
  | .call n => ["self.parse_" ++ (c.grammar.nonterminal n).name ++ "(node);"]
  | .optional ts body =>
    ["if " ++ lookaheadMatches c ts ++ " \x7b"] ++ Lines.indent (stmtsLines c body) ++ ["\x7d"]
  | .loop ts body true =>
    ["loop \x7b"] ++ Lines.indent (stmtsLines c body) ++
      ["    if !" ++ lookaheadMatches c ts ++ " \x7b", "        break;", "    \x7d", "\x7d"]
  | .loop ts body false =>
    ["while " ++ lookaheadMatches c ts ++ " \x7b"] ++ Lines.indent (stmtsLines c body) ++ ["\x7d"]
  | .dispatch ts arms expected =>
    ["let kind = self.scanner.look_ahead(" ++ kindSlice c ts ++ ").kind;", "match kind \x7b"] ++
      Lines.indent (armsLines c arms) ++
      ["    _ => \x7b",
        "        let tok = self.scanner.look_ahead(" ++ kindSlice c ts ++ ").clone();",
        "        " ++ recordError "NO_ALTERNATIVE" (expected ++ "."),
        "        return;",
        "    \x7d",
        "\x7d"]

/-- The lines of statements. -/
def stmtsLines (c : Context) : List Stmt → Lines
  | [] => []
  | s :: ss => stmtLines c s ++ stmtsLines c ss

/-- The lines of an arm. -/
def armLines (c : Context) : Arm → Lines
  | .mk ts body =>
    [kindPattern c ts ++ " => \x7b"] ++ Lines.indent (stmtsLines c body) ++ ["\x7d"]

/-- The lines of arms. -/
def armsLines (c : Context) : List Arm → Lines
  | [] => []
  | a :: as => armLines c a ++ armsLines c as

end

/-- The method of a routine. -/
def routineLines (c : Context) (r : Routine) : Lines :=
  Lines.indent <|
    ["fn parse_" ++ r.name ++ "(&mut self, parent: NodeId) \x7b",
      "    let node = self.tree.create_node(parent, self.scanner.here(" ++ kindPath r.name ++
        "), " ++ quoted r.name ++ ");"] ++
    Lines.indent (stmtsLines c r.body) ++
    ["    self.tree.widen(parent, node);", "\x7d"]

/-! ### Evaluation -/

/-- The value that a reference in action code stands for. -/
def referenceValue (r : ActionCode.Reference) : List Char :=
  "value_of(tree, node, TokenType::".toList ++ r.name ++ ", ".toList ++ r.index.getD ['0'] ++ [')']

/-- The body of a function that evaluates a nonterminal. -/
def evalBody : Option String → Lines
  | some code =>
    ["    Value::from(\x7b"] ++
      Lines.indentFilled 2 (.ofText (ActionCode.substitute referenceValue code)) ++ ["    \x7d)"]
  | none =>
    ["    match tree[node].children.first() \x7b",
      "        Some(&child) => eval_node(tree, child),",
      "        None => Value::Nil,",
      "    \x7d"]

/-- The function that evaluates a nonterminal. -/
def evalLines (n : Nonterminal) : Lines :=
  ["pub fn eval_" ++ n.name ++ "(tree: &ParseTree<TokenType>, node: NodeId) -> Value \x7b"] ++
    evalBody n.code ++ ["\x7d"]

/-- The implementation of the interface through which a host runs a parser. -/
def hostInterface : Lines :=
  ["",
    "impl tinypg_runtime::GeneratedParser for Parser \x7b",
    "    type Kind = TokenType;",
    "",
    "    fn parse(&mut self, input: &str, file: &str) -> ParseTree<TokenType> \x7b",
    "        Parser::parse(self, input, file)",
    "    \x7d",
    "\x7d"]

/-! ### Slots -/

/-- The entry of a terminal in the list of patterns. -/
def patternLine (t : Terminal) : String :=
  "            (" ++ kindPath t.name ++ ", " ++ rawString t.pattern ++ ", " ++
    (if t.ignoreCase then "true" else "false") ++ "),"

/-- The names of all symbols in the order in which their kinds are declared. -/
def memberNames (c : Context) : List String :=
  c.nonterminals.map (·.name) ++ c.terminals.map (·.name)

/-- The code of a slot. -/
def slot (c : Context) : Slot → String
  | .namespace => match c.mode with
    | .release => c.namespaceName
    | .debug => "crate"
  | .parserInterface => match c.mode with
    | .release => ""
    | .debug => Lines.text hostInterface
  | .treeInterface => match c.mode with
    | .release => "ParseTree<TokenType>"
    | .debug => "tinypg_runtime::ParseTree<TokenType>"
  | .tokenType => Lines.text ((memberNames c).map fun name => "    " ++ name ++ ",")
  | .patterns => Lines.text (c.terminals.map patternLine)
  | .skipList => ", ".intercalate ((c.namesOf c.grammar.skip).map kindPath)
  | .fileAndLine => match c.grammar.fileAndLine with
    | some t => "Some(" ++ kindPath (c.grammar.terminal t).name ++ ")"
    | none => "None"
  | .routines => Lines.text (Lines.separated (c.program.routines.map (routineLines c)))
  | .evalSymbols => Lines.text <| c.nonterminals.map fun n =>
    "        " ++ kindPath n.name ++ " => eval_" ++ n.name ++ "(tree, node),"
  | .evalMethods => Lines.text (Lines.separated (c.nonterminals.map evalLines))

end Descent.Emission.Rust
