import Descent.Text.Blank

/-!
# Target languages

The languages that parsers are emitted in, their names in a description, and the names of their
templates.
-/

namespace Descent

/-- A language that parsers can be emitted in. -/
inductive Language where
  | rust
  | csharp
  deriving DecidableEq, Repr

namespace Language

/-- The canonical name. -/
def name : Language → String
  | rust => "Rust"
  | csharp => "C#"

/-- The names a description may use, in small letters. -/
def names : Language → List String
  | rust => ["rust", "rs"]
  | csharp => ["c#", "cs", "csharp"]

/-- The language with a given name.  Blanks around it and the case of its letters do not count; no
letter outside of ASCII has one of these letters as its small form. -/
def ofName? (s : String) : Option Language :=
  let s := String.ofList ((Text.trim s.toList).map Char.toLower)
  [rust, csharp].find? fun l => s ∈ l.names

/-- The directory of the language's templates. -/
def templateDirectory : Language → String
  | rust => "rust"
  | csharp => "csharp"

/-- The namespace of a description that asks for none. -/
def defaultNamespace : Language → String
  | rust => "crate"
  | csharp => "TinyPG"

end Language

end Descent
