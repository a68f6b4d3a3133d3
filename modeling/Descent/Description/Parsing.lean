import Descent.Description.Lexing
import Descent.Description.Syntax

/-!
# Parsing a description

`Description.parse` reads tokens from left to right with at most two tokens of lookahead.  An item
that does not fit is reported once, at the token that does not fit, and reading goes on after the
next semicolon or closing brace.  Every repetition reads on only as long as tokens go away, so
reading always ends.
-/

namespace Descent.Description

/-- What the parser waits for when a token does not fit. -/
inductive Expected where
  | item
  | directiveName
  | leftBrace
  | entryKey
  | equals
  | string
  | semicolon
  | attributeName
  | attributeParam
  | rightParen
  | rightBracket
  | productionName
  | arrow
  | symbol
  deriving DecidableEq, Repr

/-- The wording of what the parser waits for. -/
def Expected.message : Expected → String
  | item => "a directive or production"
  | directiveName => "directive name"
  | leftBrace => "'\x7b'"
  | entryKey => "directive key or '\x7d'"
  | equals => "'='"
  | string => "string"
  | semicolon => "';'"
  | attributeName => "attribute name"
  | attributeParam => "attribute parameter"
  | rightParen => "')'"
  | rightBracket => "']'"
  | productionName => "production name"
  | arrow => "'->'"
  | symbol => "symbol, string, or '('"

/-- What was expected at the first of the remaining tokens. -/
structure Failure where
  expected : Expected
  rest : List Token
  deriving DecidableEq, Repr

/-- A parser reads tokens from the front, or fails at the first that does not fit. -/
abbrev Parser := StateT (List Token) (Except Failure)

namespace Parser

/-- Fails at the next token. -/
def fail {α : Type} (expected : Expected) : Parser α :=
  fun ts => .error ⟨expected, ts⟩

/-- The kind of the next token, if one is left. -/
def peek : Parser (Option Kind) := fun ts => .ok (ts.head?.map (·.kind), ts)

/-- Reads a token for which `f` gives a value. -/
def token {α : Type} (expected : Expected) (f : Token → Option α) : Parser α
  | [] => .error ⟨expected, []⟩
  | t :: ts =>
    match f t with
    | some a => .ok (a, ts)
    | none => .error ⟨expected, t :: ts⟩

/-- Reads a token of the given kind. -/
def expect (kind : Kind) (expected : Expected) : Parser Token :=
  token expected fun t => if t.kind = kind then some t else none

/-- Reads a token of the given kind if it comes next. -/
def accept (kind : Kind) : Parser (Option Token)
  | [] => .ok (none, [])
  | t :: ts => if t.kind = kind then .ok (some t, ts) else .ok (none, t :: ts)

/-- Reads items for as long as `p` gives one and tokens go away. -/
def many {α : Type} (p : Parser (Option α)) (ts : List Token) :
    Except Failure (List α × List Token) :=
  match p ts with
  | .error f => .error f
  | .ok (none, rest) => .ok ([], rest)
  | .ok (some a, rest) =>
    if rest.length < ts.length then
      match many p rest with
      | .error f => .error f
      | .ok (as, rest) => .ok (a :: as, rest)
    else .ok ([a], rest)
  termination_by ts.length

end Parser

open Description.Parser

/-- Reads an identifier. -/
def ident (expected : Expected) : Parser (Located String) :=
  token expected fun t => if t.kind = .ident then some ⟨t.text, t.span⟩ else none

/-- Reads a string. -/
def string (expected : Expected) : Parser (Located String) :=
  token expected fun t =>
    match t.kind with
    | .str value => some ⟨value, t.span⟩
    | _ => none

/-! ### Directives -/

/-- Reads an entry, or the closing brace of a directive. -/
def entryOrEnd : Parser (Option Entry) := do
  match ← accept .rightBrace with
  | some _ => pure none
  | none =>
    let key ← ident .entryKey
    let _ ← expect .equals .equals
    let value ← string .string
    let _ ← expect .semicolon .semicolon
    pure (some ⟨key, value⟩)

/-- Reads a directive after its at sign. -/
def directiveBlock : Parser DirectiveBlock := do
  let name ← ident .directiveName
  let _ ← expect .leftBrace .leftBrace
  let entries ← many entryOrEnd
  pure ⟨name, entries⟩

/-! ### Attributes -/

/-- Reads a parameter of an attribute. -/
def param : Parser (Located Param) :=
  token .attributeParam fun t =>
    match t.kind with
    | .integer => some ⟨.integer t.text, t.span⟩
    | .hex => some ⟨.hex t.text, t.span⟩
    | .double => some ⟨.double t.text, t.span⟩
    | .str value => some ⟨.str value, t.span⟩
    | _ => none

/-- Reads a comma and the parameter after it, if a comma comes next. -/
def nextParam? : Parser (Option (Located Param)) := do
  match ← accept .comma with
  | some _ => some <$> param
  | none => pure none

/-- Reads the parameters of an attribute in their parentheses, if it has any. -/
def params : Parser (List (Located Param)) := do
  match ← accept .leftParen with
  | none => pure []
  | some _ =>
    if (← peek) = some .rightParen then
      let _ ← expect .rightParen .rightParen
      pure []
    else
      let first ← param
      let others ← many nextParam?
      let _ ← expect .rightParen .rightParen
      pure (first :: others)

/-- Reads an attribute, if one comes next. -/
def attribute? : Parser (Option Attribute) := do
  match ← accept .leftBracket with
  | none => pure none
  | some left =>
    let name ← ident .attributeName
    let params ← params
    let right ← expect .rightBracket .rightBracket
    pure (some ⟨name, params, left.span.widen right.span⟩)

/-! ### Rules -/

/-- A list of parts as one expression: a single part stands for itself. -/
def Expr.ofList (many : List Expr → Expr) : List Expr → Expr
  | [e] => e
  | es => many es

/-- Whether a symbol may start with a token of the given kind. -/
def startsSymbol : Option Kind → Bool
  | some .ident | some (.str _) | some .leftParen => true
  | _ => false

/-- Applies the postfix operator that comes next, if any. -/
def postfixed (e : Expr) : Parser Expr
  | [] => .ok (e, [])
  | t :: ts =>
    match t.kind with
    | .question => .ok (.option e, ts)
    | .star => .ok (.zeroOrMore e, ts)
    | .plus => .ok (.oneOrMore e, ts)
    | _ => .ok (e, t :: ts)

/-- Reads a symbol and those that follow it without an operator between them. -/
def concatOf (symbol : Parser Expr) : Parser Expr := do
  let first ← symbol
  let others ← many do
    if startsSymbol (← peek) then some <$> symbol else pure none
  pure (.ofList .concat (first :: others))

/-- Reads alternatives with bars between them. -/
def choiceOf (symbol : Parser Expr) : Parser Expr := do
  let first ← concatOf symbol
  let others ← many do
    match ← accept .pipe with
    | some _ => some <$> concatOf symbol
    | none => pure none
  pure (.ofList .choice (first :: others))

/-- Reads a symbol with its postfix operator, inside of at most `depth` parentheses. -/
def symbol : (depth : Nat) → Parser Expr
  | 0 => fail .symbol
  | depth + 1 => do
    match ← peek with
    | some .ident => postfixed (.ident (← ident .symbol))
    | some (.str _) => postfixed (.literal (← string .symbol))
    | some .leftParen =>
      let _ ← expect .leftParen .symbol
      let inner ← choiceOf (symbol depth)
      let _ ← expect .rightParen .rightParen
      postfixed inner
    | _ => fail .symbol

/-- Reads a rule.  There are no more parentheses than tokens. -/
def rule : Parser Expr :=
  fun ts => choiceOf (symbol (ts.length + 1)) ts

/-! ### Productions -/

/-- The code of a block without its braces, at the span of its trimmed text.  If the block has no
room for that text, the span is that of the block. -/
def codeOf (body : String) (t : Token) : Located String :=
  let text := t.text.toList
  let opening := text.take 1 ++ (text.drop 1).takeWhile Text.isBlank
  if byteLength opening + byteLength body.toList ≤ byteLength text then
    ⟨body, t.span.within opening body.toList⟩
  else ⟨body, t.span⟩

/-- Reads a code block, if one comes next. -/
def code? : Parser (Option (Located String))
  | [] => .ok (none, [])
  | t :: ts =>
    match t.kind with
    | .code body => .ok (some (codeOf body t), ts)
    | _ => .ok (none, t :: ts)

/-- Reads the right-hand side: a string with a semicolon right after it is a pattern. -/
def rhs : Parser Rhs
  | t :: u :: ts =>
    if t.kind.isStr ∧ u.kind = .semicolon then (.pattern <$> string .symbol) (t :: u :: ts)
    else (.rule <$> rule) (t :: u :: ts)
  | ts => (.rule <$> rule) ts

/-- Reads a production. -/
def production : Parser Production := do
  let before ← many attribute?
  let name ← ident .productionName
  let after ← many attribute?
  let _ ← expect .arrow .arrow
  let rhs ← rhs
  let code ← code?
  let _ ← expect .semicolon .semicolon
  pure ⟨name, before ++ after, rhs, code⟩

/-! ### Items -/

/-- Reads a directive or a production. -/
def item : Parser Item := do
  match ← peek with
  | some .atSign =>
    let _ ← expect .atSign .item
    .directive <$> directiveBlock
  | some .ident | some .leftBracket => .production <$> production
  | _ => fail .item

/-- Whether reading may go on after a token of the given kind. -/
def Kind.synchronizes : Kind → Bool
  | .semicolon | .rightBrace => true
  | _ => false

/-- The tokens after the next semicolon or closing brace. -/
def recover (ts : List Token) : List Token :=
  (ts.dropWhile fun t => !t.kind.synchronizes).drop 1

/-- The diagnostic of a failure; beyond the last token stands the end of the text. -/
def Failure.diagnostic (f : Failure) (eof : Token) : Diagnostic :=
  let found := f.rest.headD eof
  (Problem.unexpected found.text f.expected.message).located found.span

/-- Reads items up to the end, and reports those that do not fit. -/
def readItems (eof : Token) (ts : List Token) : List Item × List Diagnostic :=
  match ts with
  | [] => ([], [])
  | t :: ts =>
    match item (t :: ts) with
    | .ok (i, rest) =>
      if _h : rest.length < (t :: ts).length then
        let (is, ds) := readItems eof rest
        (i :: is, ds)
      else ([i], [])
    | .error f =>
      if _h : (recover f.rest).length < (t :: ts).length then
        let (is, ds) := readItems eof (recover f.rest)
        (is, f.diagnostic eof :: ds)
      else ([], [f.diagnostic eof])
termination_by ts.length
decreasing_by all_goals assumption

end Description

/-- Reads a description.  What its tokens leave open is reported first. -/
def Description.parse (text file : String) : Description × List Diagnostic :=
  let ts := Description.Tokens.ofText text file
  let (items, diagnostics) := Description.readItems ts.eof ts.tokens
  (⟨items⟩, ts.diagnostics ++ diagnostics)

end Descent
