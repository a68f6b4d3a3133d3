import Descent.ActionCode
import Descent.Emission.Basic
import Descent.Emission.Lines

/-!
# C# code

A parser in C# has a method for every routine and a virtual method for every nonterminal to
evaluate.  Patterns stand in verbatim strings, messages in regular ones.
-/

namespace Descent.Emission.Csharp

/-! ### Literals -/

/-- A character in a verbatim string: a quote is written twice. -/
def verbatimChar (c : Char) : List Char := if c = '"' then ['"', '"'] else [c]

/-- A text as a verbatim string. -/
def verbatim (s : String) : String :=
  "@\"" ++ String.ofList (s.toList.flatMap verbatimChar) ++ "\""

/-- A character in a regular string: a quote or backslash has a backslash before it. -/
def escapedChar (c : Char) : List Char := if c = '\\' ∨ c = '"' then ['\\', c] else [c]

/-- A text as it stands in a regular string. -/
def escaped (s : String) : String := String.ofList (s.toList.flatMap escapedChar)

/-- A text with blanks behind it that bring it to twenty characters. -/
def padded (s : String) : String := s ++ String.ofList (List.replicate (20 - s.length) ' ')

/-! ### Statements -/

/-- The kind of a symbol with a given name. -/
def kindPath (name : String) : String := "TokenType." ++ name

/-- The call that looks at the next token. -/
def lookaheadCall (c : Context) (ts : List TerminalId) (what : String) : String :=
  "tok = scanner.LookAhead(" ++ ", ".intercalate ((c.namesOf ts).map kindPath) ++ "); // " ++ what

/-- A condition that spreads over lines, with text before and behind it. -/
def spread (before behind : String) : List String → Lines
  | [] => [before ++ behind]
  | [test] => [before ++ test ++ behind]
  | test :: tests => (before ++ test) :: spread "    || " behind tests

/-- The condition that the token at hand is one of several terminals. -/
def condition (c : Context) (ts : List TerminalId) (before behind : String) : Lines :=
  spread before behind ((c.namesOf ts).map fun name => "tok.Type == " ++ kindPath name)

/-- The statement that records an error. -/
def recordError (code expected : String) : String :=
  "tree.Errors.Add(new ParseError(\"Unexpected token '\" + tok.Text.Replace(\"\\n\", \"\") + " ++
    "\"' found. Expected " ++ escaped expected ++ "\", " ++ code ++ ", tok));"

mutual

/-- The lines of a statement. -/
def stmtLines (c : Context) : Stmt → Lines
  | .expect t expected =>
    let name := (c.grammar.terminal t).name
    ["tok = scanner.Scan(" ++ kindPath name ++ "); // Terminal Rule: " ++ name,
      "n = node.CreateNode(tok, tok.ToString() );",
      "node.Token.UpdateRange(tok);",
      "node.Nodes.Add(n);",
      "if (tok.Type != " ++ kindPath name ++ ") \x7b",
      "    " ++ recordError "0x1001" expected,
      "    return;",
      "\x7d"]
  | .call n =>
    let name := (c.grammar.nonterminal n).name
    ["Parse" ++ name ++ "(node); // NonTerminal Rule: " ++ name]
  | .optional ts body =>
    [lookaheadCall c ts "Option Rule"] ++ condition c ts "if (" ")" ++ ["\x7b"] ++
      Lines.indent (stmtsLines c body) ++ ["\x7d"]
  | .loop ts body false =>
    [lookaheadCall c ts "ZeroOrMore Rule"] ++ condition c ts "while (" ")" ++ ["\x7b"] ++
      Lines.indent (stmtsLines c body) ++ [lookaheadCall c ts "ZeroOrMore Rule", "\x7d"]
  | .loop ts body true =>
    ["do \x7b // OneOrMore Rule"] ++
      Lines.indent (stmtsLines c body ++ [lookaheadCall c ts "OneOrMore Rule"]) ++
      condition c ts "\x7d while (" "); // OneOrMore Rule"
  | .dispatch ts arms expected =>
    [lookaheadCall c ts "Choice Rule", "switch (tok.Type)", "\x7b // Choice Rule"] ++
      Lines.indent (armsLines c arms) ++
      ["    default:",
        "        " ++ recordError "0x0002" (expected ++ "."),
        "        return;",
        "\x7d // Choice Rule"]

/-- The lines of statements. -/
def stmtsLines (c : Context) : List Stmt → Lines
  | [] => []
  | s :: ss => stmtLines c s ++ stmtsLines c ss

/-- The lines of an arm. -/
def armLines (c : Context) : Arm → Lines
  | .mk ts body =>
    (c.namesOf ts).map (fun name => "case " ++ kindPath name ++ ":") ++
      Lines.indent (stmtsLines c body ++ ["break;"])

/-- The lines of arms. -/
def armsLines (c : Context) : List Arm → Lines
  | [] => []
  | a :: as => armLines c a ++ armsLines c as

end

/-- The method of a routine. -/
def routineLines (c : Context) (r : Routine) : Lines :=
  ["        private void Parse" ++ r.name ++ "(ParseNode parent) // NonTerminalSymbol: " ++ r.name,
    "        \x7b",
    "            Token tok;",
    "            ParseNode n;",
    "            ParseNode node = parent.CreateNode(scanner.GetToken(" ++ kindPath r.name ++
      "), \"" ++ r.name ++ "\");",
    "            parent.Nodes.Add(node);",
    ""] ++
  Lines.indentBy 3 (stmtsLines c r.body) ++
  ["",
    "            parent.Token.UpdateRange(node.Token);",
    "        \x7d // NonTerminalSymbol: " ++ r.name,
    ""]

/-! ### Evaluation -/

/-- The value that a reference in action code stands for. -/
def referenceValue (r : ActionCode.Reference) : List Char :=
  "this.GetValue(tree, TokenType.".toList ++ r.name ++ ", ".toList ++ r.index.getD ['0'] ++ [')']

/-- The body of a method that evaluates a nonterminal. -/
def evalBody : Option String → Lines
  | some code => Lines.indentFilled 3 (.ofText (ActionCode.substitute referenceValue code))
  | none => ["            throw new NotImplementedException();"]

/-- The method that evaluates a nonterminal. -/
def evalLines (n : Nonterminal) : Lines :=
  ["        protected virtual object Eval" ++ n.name ++
      "(ParseTree tree, params object[] paramlist)",
    "        \x7b"] ++
  evalBody n.code ++
  ["        \x7d", ""]

/-! ### Slots -/

/-- The members of the enumeration of kinds: its names are numbered from `value` on. -/
def memberLines (value : Nat) : List String → Lines
  | [] => []
  | name :: names =>
    let line := "            " ++ padded name ++ "= " ++ toString value ++ ","
    line :: memberLines (value + 1) names

/-- The enumeration of kinds. -/
def kindLines (c : Context) : Lines :=
  ["            //Non terminal tokens:",
    "            _NONE_  = 0,",
    "            _UNDETERMINED_= 1,"] ++
  memberLines 2 (c.nonterminals.map (·.name)) ++
  ["", "            //Terminal tokens:"] ++
  memberLines (2 + c.nonterminals.length) (c.terminals.map (·.name))

/-- The lines that declare the pattern of a terminal. -/
def patternLines (t : Terminal) : Lines :=
  let options :=
    if t.ignoreCase then "RegexOptions.Compiled | RegexOptions.IgnoreCase"
    else "RegexOptions.Compiled"
  ["            regex = new Regex(" ++ verbatim t.pattern ++ ", " ++ options ++ ");",
    "            Patterns.Add(" ++ kindPath t.name ++ ", regex);",
    "            Tokens.Add(" ++ kindPath t.name ++ ");",
    ""]

/-- The case that evaluates a nonterminal. -/
def evalCase (n : Nonterminal) : Lines :=
  ["                case " ++ kindPath n.name ++ ":",
    "                    Value = Eval" ++ n.name ++ "(tree, paramlist);",
    "                    break;"]

/-- The code of a slot. -/
def slot (c : Context) : Slot → String
  | .namespace => match c.mode with
    | .release => c.namespaceName
    | .debug => "TinyPG.Debug"
  | .parserInterface => match c.mode with
    | .release => ""
    | .debug => " : TinyPG.Debug.IParser"
  | .treeInterface => match c.mode with
    | .release => "ParseTree"
    | .debug => "TinyPG.Debug.IParseTree"
  | .tokenType => Lines.text (kindLines c)
  | .patterns => Lines.text (c.terminals.flatMap patternLines)
  | .skipList => Lines.text <| (c.namesOf c.grammar.skip).map fun name =>
    "            SkipList.Add(" ++ kindPath name ++ ");"
  | .fileAndLine => Lines.text <| c.grammar.fileAndLine.toList.map fun t =>
    "            FileAndLine = " ++ kindPath (c.grammar.terminal t).name ++ ";"
  | .routines => Lines.text (c.program.routines.flatMap (routineLines c))
  | .evalSymbols => Lines.text (c.nonterminals.flatMap evalCase)
  | .evalMethods => Lines.text (c.nonterminals.flatMap evalLines)

end Descent.Emission.Csharp
