import Descent.Position

/-!
# Descriptions

A description is a list of items: directives, which set options, and productions, which declare
terminals by a pattern and nonterminals by a rule.  Names, strings and code blocks keep the span
they were written at.
-/

namespace Descent

/-- A value and the span it was written at. -/
structure Located (α : Type) where
  value : α
  span : Span
  deriving DecidableEq, Repr

namespace Description

/-- A `key = "value";` pair of a directive. -/
structure Entry where
  key : Located String
  value : Located String
  deriving DecidableEq, Repr

/-- A directive `@Name { … }` with its entries. -/
structure DirectiveBlock where
  name : Located String
  entries : List Entry
  deriving DecidableEq, Repr

/-- A parameter of an attribute, as written. -/
inductive Param where
  | integer (text : String)
  | hex (text : String)
  | double (text : String)
  | str (text : String)
  deriving DecidableEq, Repr

namespace Param

/-- The parameter as a message shows it: numbers as written, strings in quotes. -/
def written : Param → String
  | integer text | hex text | double text => text
  | str text => "\"" ++ text ++ "\""

/-- Whether the parameter is a string. -/
def isStr : Param → Bool
  | str _ => true
  | _ => false

end Param

/-- An attribute `[Name(…)]`; its span reaches from bracket to bracket. -/
structure Attribute where
  name : Located String
  params : List (Located Param)
  span : Span
  deriving DecidableEq, Repr

/-- An expression over symbols and literal texts. -/
inductive Expr where
  | ident (name : Located String)
  | literal (text : Located String)
  | choice (alternatives : List Expr)
  | concat (parts : List Expr)
  | option (operand : Expr)
  | zeroOrMore (operand : Expr)
  | oneOrMore (operand : Expr)
  deriving Repr

/-- The right-hand side of a production: a pattern declares a terminal, a rule a nonterminal. -/
inductive Rhs where
  | pattern (pattern : Located String)
  | rule (rule : Expr)
  deriving Repr

/-- A production with its attributes and its action code. -/
structure Production where
  name : Located String
  attributes : List Attribute
  rhs : Rhs
  code : Option (Located String)
  deriving Repr

/-- An item of a description. -/
inductive Item where
  | directive (block : DirectiveBlock)
  | production (production : Production)
  deriving Repr

end Description

/-- The items of a description, in order of appearance. -/
structure Description where
  items : List Description.Item
  deriving Repr

/-- The productions of a description, in order. -/
def Description.productions (d : Description) : List Description.Production :=
  d.items.filterMap fun
    | .production p => some p
    | .directive _ => none

end Descent
