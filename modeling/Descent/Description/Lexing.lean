import Descent.Description.Token
import Descent.Text.Ascii
import Descent.Text.Blank
import Descent.Text.Digit

/-!
# Cutting a description into tokens

`Tokens.ofText` cuts a text into lexemes and gathers the blanks and comments before each token.
Every lexeme is measured first, by `extent`, as a kind and a number of characters; its text, the
rest and the position after it follow from that number alone, so that nothing is lost and nothing
is counted twice.
-/

namespace Descent.Description

open Descent.Text

/-- What an opening brace means depends on the two tokens before it. -/
inductive Context where
  | plain
  /-- After an at sign. -/
  | afterAt
  /-- After an at sign and a name: a brace opens a directive. -/
  | afterDirectiveName
  deriving DecidableEq, Repr

/-- The context after a token of the given kind. -/
def Context.next : Context → Kind → Context
  | _, .atSign => .afterAt
  | .afterAt, .ident => .afterDirectiveName
  | _, _ => .plain

/-! ### Delimited lexemes -/

/-- What follows an opening delimiter: how many characters belong to the lexeme, the text they
stand for, and whether the delimiter is closed. -/
structure Body where
  length : Nat
  text : List Char
  closed : Bool
  deriving DecidableEq, Repr

/-- Puts characters in front of a body, standing for the given text. -/
def Body.prepend (length : Nat) (text : List Char) (b : Body) : Body :=
  ⟨length + b.length, text ++ b.text, b.closed⟩

/-- The body of a string after its opening quote.  A backslash escapes the quote and nothing else:
two backslashes stay two, and any other backslash stands for itself. -/
def stringBody (quote : Char) : List Char → Body
  | [] => ⟨0, [], false⟩
  | c :: cs =>
    if c = quote then ⟨1, [], true⟩
    else if c = '\\' then
      match cs with
      | [] => ⟨1, ['\\'], false⟩
      | d :: ds =>
        if d = quote then (stringBody quote ds).prepend 2 [quote]
        else if d = '\\' then (stringBody quote ds).prepend 2 ['\\', '\\']
        else (stringBody quote (d :: ds)).prepend 1 ['\\']
    else (stringBody quote cs).prepend 1 [c]

/-- The body of a code block after its opening brace, `depth` braces deep. -/
def codeBody (depth : Nat) : List Char → Body
  | [] => ⟨0, [], false⟩
  | c :: cs =>
    if c = '}' then
      match depth with
      | 0 => ⟨1, [], true⟩
      | d + 1 => (codeBody d cs).prepend 1 [c]
    else if c = '{' then (codeBody (depth + 1) cs).prepend 1 [c]
    else (codeBody depth cs).prepend 1 [c]

/-- The body of a comment after its opening slash and star. -/
def commentBody : List Char → Body
  | [] => ⟨0, [], false⟩
  | c :: cs =>
    if c = '*' ∧ cs.head? = some '/' then ⟨2, [], true⟩ else (commentBody cs).prepend 1 []

/-! ### Lexemes -/

/-- The kind of a lexeme, how many characters it has after its first, and what it leaves open. -/
structure Extent where
  kind : Kind
  tail : Nat
  unterminated : Option Unterminated
  deriving DecidableEq, Repr

/-- A lexeme of the given kind that is complete. -/
def Extent.complete (kind : Kind) (tail : Nat) : Extent := ⟨kind, tail, none⟩

/-- How many characters at the front satisfy `p`. -/
def run (p : Char → Bool) (cs : List Char) : Nat := (cs.takeWhile p).length

/-- Whether a character may start an identifier. -/
def startsIdent (c : Char) : Bool := isLetter c || c == '_'

/-- Whether a character may go on in an identifier. -/
def continuesIdent (c : Char) : Bool := isAlphanumeric c || c == '_'

/-- A number that starts with a digit: an integer, or a double if a point and a digit follow. -/
def numberExtent (cs : List Char) : Extent :=
  let digits := run isAsciiDigit cs
  match cs.drop digits with
  | '.' :: d :: ds =>
    if isAsciiDigit d then .complete .double (digits + 2 + run isAsciiDigit ds)
    else .complete .integer digits
  | _ => .complete .integer digits

/-- The kind of a character that is a token by itself. -/
def punctuation : Char → Kind
  | '@' => .atSign
  | '}' => .rightBrace
  | '[' => .leftBracket
  | ']' => .rightBracket
  | '(' => .leftParen
  | ')' => .rightParen
  | ',' => .comma
  | ';' => .semicolon
  | '=' => .equals
  | '|' => .pipe
  | '?' => .question
  | '*' => .star
  | '+' => .plus
  | _ => .unknown

/-- Marks what a body that is not closed leaves open. -/
def Body.left (b : Body) (what : Unterminated) : Option Unterminated :=
  if b.closed then none else some what

/-- The lexeme that starts with the character `c` and goes on in `cs`. -/
def extent (context : Context) (c : Char) (cs : List Char) : Extent :=
  if isBlank c then .complete .whitespace (run isBlank cs)
  else if c = '/' ∧ cs.head? = some '/' then .complete .comment (run (· ≠ '\n') cs)
  else if c = '/' ∧ cs.head? = some '*' then
    let body := commentBody cs.tail
    ⟨.comment, 1 + body.length, body.left .comment⟩
  else if c = '-' ∧ cs.head? = some '>' then .complete .arrow 1
  else if c = '"' ∨ c = '\'' then
    let body := stringBody c cs
    ⟨.str (String.ofList body.text), body.length, body.left .string⟩
  else if c = '{' then
    if context = .afterDirectiveName then .complete .leftBrace 0
    else
      let body := codeBody 0 cs
      ⟨.code (String.ofList (trim body.text)), body.length, body.left .codeBlock⟩
  else if c = '0' ∧ (cs.head? = some 'x' ∨ cs.head? = some 'X') then
    .complete .hex (1 + run isHexDigit cs.tail)
  else if isAsciiDigit c then numberExtent cs
  else if startsIdent c then .complete .ident (run continuesIdent cs)
  else .complete (punctuation c) 0

/-! ### Tokens -/

/-- Cuts the rest of a text, given the context, the position, and the lexemes skipped since the
last token. -/
def Tokens.ofRest (file : String) (context : Context) (p : Position)
    (skipped : List (Lexeme Kind)) : List Char → Tokens
  | [] => ⟨[], { kind := .eof, span := .ofPosition file p 0, text := "EOF", skipped }, []⟩
  | c :: cs =>
    let e := extent context c cs
    let text := c :: cs.take e.tail
    let span := Span.ofPosition file p (byteLength text)
    let lexeme : Lexeme Kind := ⟨e.kind, span, String.ofList text⟩
    let left := e.unterminated.toList.map fun what => (Problem.unterminated what).located span
    if e.kind.isSkipped then
      let after := ofRest file context (p.advance text) (skipped ++ [lexeme]) (cs.drop e.tail)
      { after with diagnostics := left ++ after.diagnostics }
    else
      let after := ofRest file (context.next e.kind) (p.advance text) [] (cs.drop e.tail)
      { after with
        tokens := { lexeme with skipped } :: after.tokens
        diagnostics := left ++ after.diagnostics }
  termination_by cs => cs.length
  decreasing_by all_goals simp only [List.length_drop, List.length_cons]; omega

/-- The tokens of a description. -/
def Tokens.ofText (text file : String) : Tokens := ofRest file .plain .start [] text.toList

end Descent.Description
