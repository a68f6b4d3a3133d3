/-!
# Rust templates

The templates that come with the program for parsers in Rust, line by line.
-/

namespace Descent.Template.Rust

/-- The template of the scanner. -/
def scanner : String := String.join [
  "// Generated by tinypg. Changes to this file are lost on regeneration.\n",
  "\n",
  "use tinypg_runtime::\x7bregex, Scanner, TokenKind\x7d;\n",
  "\n",
  "/// The kinds of tokens and parse tree nodes of the grammar.\n",
  "#[allow(non_camel_case_types)]\n",
  "#[derive(Debug, Clone, Copy, PartialEq, Eq, Hash)]\n",
  "pub enum TokenType \x7b\n",
  "    _NONE_,\n",
  "    _UNDETERMINED_,\n",
  "<%TokenType%>\x7d\n",
  "\n",
  "impl TokenKind for TokenType \x7b\n",
  "    fn undetermined() -> TokenType \x7b\n",
  "        TokenType::_UNDETERMINED_\n",
  "    \x7d\n",
  "\n",
  "    fn root() -> TokenType \x7b\n",
  "        TokenType::_NONE_\n",
  "    \x7d\n",
  "\x7d\n",
  "\n",
  "/// Create a scanner for the terminals of the grammar.\n",
  "pub fn new_scanner() -> Result<Scanner<TokenType>, regex::Error> \x7b\n",
  "    Scanner::compile(\n",
  "        &[\n",
  "<%RegExps%>        ],\n",
  "        vec![<%SkipList%>],\n",
  "        <%FileAndLine%>,\n",
  "    )\n",
  "\x7d\n"]

/-- The template of the parser. -/
def parser : String := String.join [
  "// Generated by tinypg. Changes to this file are lost on regeneration.\n",
  "#![allow(non_snake_case, unused_imports)]\n",
  "\n",
  "use std::mem;\n",
  "\n",
  "use tinypg_runtime::\x7bcodes, NodeId, ParseError, ParseTree, Scanner\x7d;\n",
  "use <%Namespace%>::scanner::TokenType;\n",
  "\n",
  "/// A recursive-descent parser for the grammar.\n",
  "pub struct Parser \x7b\n",
  "    scanner: Scanner<TokenType>,\n",
  "    tree: ParseTree<TokenType>,\n",
  "\x7d\n",
  "\n",
  "impl Parser \x7b\n",
  "    /// Create a parser that reads tokens from \x60scanner\x60.\n",
  "    pub fn new(scanner: Scanner<TokenType>) -> Parser \x7b\n",
  "        Parser \x7b\n",
  "            scanner,\n",
  "            tree: ParseTree::new(),\n",
  "        \x7d\n",
  "    \x7d\n",
  "\n",
  "    /// Parse \x60input\x60, starting at the \x60Start\x60 production.\n",
  "    pub fn parse(&mut self, input: &str, file: &str) -> <%IParseTree%> \x7b\n",
  "        self.scanner.init(input, file);\n",
  "        self.tree = ParseTree::new();\n",
  "        let root = self.tree.root();\n",
  "        self.parse_Start(root);\n",
  "        mem::replace(&mut self.tree, ParseTree::new())\n",
  "    \x7d\n",
  "\n",
  "<%ParseNonTerminals%>\x7d\n",
  "<%IParser%>\n"]

/-- The template of the evaluation of parse trees. -/
def parseTree : String := String.join [
  "// Generated by tinypg. Changes to this file are lost on regeneration.\n",
  "#![allow(non_snake_case, unused_variables)]\n",
  "\n",
  "use tinypg_runtime::\x7bNodeId, ParseTree, Value\x7d;\n",
  "use <%Namespace%>::scanner::TokenType;\n",
  "\n",
  "/// Evaluate a parse tree, starting at its \x60Start\x60 node.\n",
  "pub fn eval(tree: &<%IParseTree%>) -> Value \x7b\n",
  "    match tree[tree.root()].children.first() \x7b\n",
  "        Some(&child) => eval_node(tree, child),\n",
  "        None => Value::Nil,\n",
  "    \x7d\n",
  "\x7d\n",
  "\n",
  "/// Evaluate a single node. Terminals evaluate to their text.\n",
  "pub fn eval_node(tree: &ParseTree<TokenType>, node: NodeId) -> Value \x7b\n",
  "    match tree[node].token.kind \x7b\n",
  "<%EvalSymbols%>        _ => Value::Str(tree[node].token.text.clone()),\n",
  "    \x7d\n",
  "\x7d\n",
  "\n",
  "/// Evaluate the \x60index\x60-th child of \x60node\x60 that is of the given kind.\n",
  "pub fn value_of(tree: &ParseTree<TokenType>, node: NodeId, kind: TokenType, index: usize) -> Value \x7b\n",
  "    match tree.nth_child(node, kind, index) \x7b\n",
  "        Some(child) => eval_node(tree, child),\n",
  "        None => Value::Nil,\n",
  "    \x7d\n",
  "\x7d\n",
  "\n",
  "<%VirtualEvalMethods%>\n"]

end Descent.Template.Rust
