import Descent.Language
import Descent.OrderedMap
import Descent.Position

/-!
# Directives

A directive sets options of the emitted code: of all of it, or of one of its parts.  Its values
stand under keys, in the order in which they were set.  A grammar has a list of directives; of
those of one kind, the first counts.
-/

namespace Descent

/-- What a directive is about. -/
inductive Directive.Kind where
  /-- All of the emitted code: language, namespace and directories. -/
  | overall
  | parser
  | scanner
  | parseTree
  | textHighlighter
  deriving DecidableEq, Repr

namespace Directive.Kind

/-- All kinds. -/
def all : List Kind := [overall, parser, scanner, parseTree, textHighlighter]

/-- The name of a directive in a description. -/
def name : Kind → String
  | overall => "TinyPG"
  | parser => "Parser"
  | scanner => "Scanner"
  | parseTree => "ParseTree"
  | textHighlighter => "TextHighlighter"

/-- The kind of directive with a given name. -/
def ofName? (s : String) : Option Kind := all.find? (·.name = s)

/-- The keys that a directive may set. -/
def keys : Kind → List String
  | overall => ["Namespace", "OutputPath", "TemplatePath", "Language"]
  | _ => ["Generate", "FileName"]

end Directive.Kind

/-- A directive, its values by key, and the span of its name. -/
structure Directive where
  kind : Directive.Kind
  values : OrderedMap String String
  span : Span
  deriving DecidableEq, Repr

namespace Directive

/-- A directive without values. -/
def bare (kind : Kind) (span : Span) : Directive := ⟨kind, .empty, span⟩

/-- The value of a key. -/
def get? (d : Directive) (key : String) : Option String := d.values.get? key

/-- Sets the value of a key. -/
def set (d : Directive) (key value : String) : Directive :=
  { d with values := d.values.insert key value }

/-- Sets the value of a key that has none. -/
def setDefault (d : Directive) (key value : String) : Directive :=
  { d with values := d.values.insertNew key value }

/-- Whether a text says true, in letters of either case and with blanks around it. -/
def saysTrue (s : String) : Bool :=
  (Text.trim s.toList).map Char.toLower == "true".toList

/-- Whether the directive asks for its part to be emitted. -/
def generate (d : Directive) : Bool := (d.get? "Generate").any saysTrue

end Directive

/-- The directives of a grammar, in order. -/
structure Directives where
  toList : List Directive
  deriving DecidableEq, Repr

namespace Directives

/-- No directives. -/
def empty : Directives := ⟨[]⟩

/-- The first directive of a kind. -/
def find? (ds : Directives) (kind : Directive.Kind) : Option Directive :=
  ds.toList.find? (·.kind = kind)

/-- Puts a directive at the end. -/
def push (ds : Directives) (d : Directive) : Directives := ⟨ds.toList ++ [d]⟩

/-- Puts a directive at an index, or at the end if there is no such index. -/
def insert (ds : Directives) (index : Nat) (d : Directive) : Directives :=
  ⟨ds.toList.take index ++ d :: ds.toList.drop index⟩

/-- Changes the first directive of a kind in a list. -/
def updateFirst (kind : Directive.Kind) (f : Directive → Directive) :
    List Directive → List Directive
  | [] => []
  | d :: ds => if d.kind = kind then f d :: ds else d :: updateFirst kind f ds

/-- Changes the first directive of a kind. -/
def update (ds : Directives) (kind : Directive.Kind) (f : Directive → Directive) : Directives :=
  ⟨updateFirst kind f ds.toList⟩

/-- A value of the first directive of a kind. -/
def value? (ds : Directives) (kind : Directive.Kind) (key : String) : Option String :=
  (ds.find? kind).bind (·.get? key)

/-- The language that the directives ask for. -/
def language? (ds : Directives) : Option Language :=
  (ds.value? .overall "Language").bind Language.ofName?

/-- Whether the directives ask for a part to be emitted. -/
def generate (ds : Directives) (kind : Directive.Kind) : Bool := (ds.find? kind).any (·.generate)

end Directives

end Descent
