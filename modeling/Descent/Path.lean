/-!
# Paths

A path is a text with slashes between names.  Joining keeps the text as it is written; what a path
leads to depends only on its components.
-/

namespace Descent

/-- A path, as written. -/
structure Path where
  text : String
  deriving DecidableEq, Repr

namespace Path

/-- Whether a path starts at the root. -/
def isAbsolute (p : Path) : Bool := p.text.toList.head? == some '/'

/-- Whether a path ends in a slash. -/
def endsWithSlash (p : Path) : Bool := p.text.toList.getLast? == some '/'

/-- A path below another one.  An absolute path stays as it is. -/
def join (p q : Path) : Path :=
  if q.isAbsolute || p.text.isEmpty then q
  else if p.endsWithSlash then ⟨p.text ++ q.text⟩
  else ⟨p.text ++ "/" ++ q.text⟩

/-- Cuts a text at slashes. -/
def splitSlashes : List Char → List (List Char)
  | [] => [[]]
  | c :: cs =>
    if c = '/' then [] :: splitSlashes cs
    else
      match splitSlashes cs with
      | [] => [[c]]
      | name :: names => (c :: name) :: names

/-- The names on a path, without empty ones. -/
def components (p : Path) : List String :=
  ((splitSlashes p.text.toList).filter (!·.isEmpty)).map String.ofList

/-- Whether a name takes no part in a path behind its first: it is empty or a point. -/
def isIdle (name : List Char) : Bool := name.isEmpty || name == ['.']

/-- Names with slashes between them. -/
def joinSlashes : List (List Char) → List Char
  | [] => []
  | [name] => name
  | name :: names => name ++ '/' :: joinSlashes names

/-- Leaves out the idle names at the end of a reversed list of names, the first name excepted. -/
def dropIdle : List (List Char) → List (List Char)
  | [] => []
  | [name] => [name]
  | name :: names => if isIdle name then dropIdle names else name :: names

/-- The path without its last component, if it has one.  Idle names at the end are left out with
it. -/
def parent? (p : Path) : Option Path :=
  match dropIdle (splitSlashes p.text.toList).reverse with
  | [] => none
  | [name] => if name.isEmpty then none else some ⟨""⟩
  | _ :: names =>
    match dropIdle names with
    | [[]] => some ⟨"/"⟩
    | names => some ⟨String.ofList (joinSlashes names.reverse)⟩

end Path

end Descent
