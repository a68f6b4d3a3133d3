import Descent.Diagnostic

/-!
# Tokens

A lexeme is a stretch of a text together with its kind; a token is a lexeme that matters, with the
lexemes skipped before it.
-/

namespace Descent

/-- A stretch of a text and its kind. -/
structure Lexeme (κ : Type) where
  kind : κ
  span : Span
  text : String
  deriving DecidableEq, Repr

/-- A lexeme that matters, with those skipped right before it. -/
structure Token (κ : Type) extends Lexeme κ where
  skipped : List (Lexeme κ)
  deriving DecidableEq, Repr

/-- The two kinds that every alphabet of token and node kinds has. -/
class TokenKind (κ : Type) where
  /-- The kind of input that no pattern matches. -/
  undetermined : κ
  /-- The kind of the root of a parse tree. -/
  root : κ

/-- The diagnostic of a token that is not what the parser waits for. -/
def Diagnostic.unexpected {κ : Type} (code : Nat) (found : Lexeme κ) (expected : String) :
    Diagnostic :=
  .located code (unexpectedMessage found.text expected) found.span

/-- A lexeme as a tree shows it: the name of its kind and its text. -/
def Lexeme.label {κ : Type} (name : κ → String) (l : Lexeme κ) : String :=
  s!"{name l.kind} '{l.text}'"

end Descent
