import Descent.Token

/-!
# Tokens of a description

The kinds of lexemes in a grammar description.  A string carries what it stands for, a code block
its text between the braces.
-/

namespace Descent.Description

/-- The kinds of lexemes in a description. -/
inductive Kind where
  /-- A character that starts no other lexeme. -/
  | unknown
  | ident
  /-- A quoted string and the text it stands for. -/
  | str (value : String)
  /-- A code block and its trimmed text. -/
  | code (body : String)
  | integer
  | hex
  | double
  | atSign
  | leftBrace
  | rightBrace
  | leftBracket
  | rightBracket
  | leftParen
  | rightParen
  | comma
  | semicolon
  | equals
  | arrow
  | pipe
  | question
  | star
  | plus
  | whitespace
  | comment
  | eof
  deriving DecidableEq, Repr

namespace Kind

/-- Whether lexemes of the kind separate tokens and are none themselves. -/
def isSkipped : Kind → Bool
  | whitespace | comment => true
  | _ => false

/-- Whether a lexeme of the kind is a string. -/
def isStr : Kind → Bool
  | str _ => true
  | _ => false

end Kind

/-- A token of a description. -/
abbrev Token := Descent.Token Kind

/-- The tokens of a description: those before the end, the token at the end, and what was left
open. -/
structure Tokens where
  tokens : List Token
  eof : Token
  diagnostics : List Diagnostic
  deriving DecidableEq, Repr

end Descent.Description
