import Descent.Grammar.Attribute
import Descent.Options

/-!
# Declarations

The items of a description declare the literals, directives and symbols of a grammar.  Literals come
first, so that they win over patterns that match the same text; their names avoid those of all
productions.  A name belongs to the production that declares it first.
-/

namespace Descent

/-! ### Literals -/

namespace Description

mutual

/-- The literal texts in an expression, in order. -/
def Expr.literals : Expr → List (Located String)
  | .ident _ => []
  | .literal text => [text]
  | .choice es | .concat es => Expr.literalsAll es
  | .option e | .zeroOrMore e | .oneOrMore e => Expr.literals e

/-- The literal texts in several expressions. -/
def Expr.literalsAll : List Expr → List (Located String)
  | [] => []
  | e :: es => Expr.literals e ++ Expr.literalsAll es

end

/-- The literal texts in a right-hand side. -/
def Rhs.literals : Rhs → List (Located String)
  | pattern _ => []
  | rule e => e.literals

end Description

/-- Adds the terminal of a literal text under a name that is not reserved. -/
def Draft.declareLiteral [Engine] (reserved : List String) (d : Draft) (text : Located String) :
    Draft :=
  match d.grammar.addLiteral text.value reserved text.span with
  | .ok (_, g) => d.update fun _ => g
  | .error (.pattern reason) => d.report (.invalidPattern text.value reason) text.span
  | .error .nameTaken => d.report (.noNameLeft text.value) text.span

/-- Adds the terminals of all literal texts in a description. -/
def Draft.declareLiterals [Engine] (desc : Description) (d : Draft) : Draft :=
  let reserved := desc.productions.map (·.name.value)
  (desc.productions.flatMap (·.rhs.literals)).foldl (Draft.declareLiteral reserved) d

/-! ### Directives -/

/-- What is wrong with a value of the directive about all of the emitted code. -/
def Options.valueProblem? (o : Options) (fs : FileSystem) (key value : String) : Option Problem :=
  match key with
  | "TemplatePath" => if (o.template? fs value).isNone then some (.templatePath value) else none
  | "OutputPath" => if (o.output? fs value).isNone then some (.outputPath value) else none
  | "Language" =>
    if (Language.ofName? value).isNone then some (.unsupportedLanguage value) else none
  | _ => none

/-- The diagnostics of an entry of a directive. -/
def Description.Entry.diagnostics (e : Entry) (o : Options) (fs : FileSystem)
    (kind : Directive.Kind) : List Diagnostic :=
  let key := e.key.value
  if key ∉ kind.keys then [(Problem.unsupportedKey key).located e.key.span]
  else if kind = .overall then
    (o.valueProblem? fs key e.value.value).toList.map (·.located e.value.span)
  else []

/-- The directive with the entries whose keys it supports. -/
def Directive.ofEntries (kind : Directive.Kind) (span : Span) (entries : List Description.Entry) :
    Directive :=
  (entries.filter fun e => e.key.value ∈ kind.keys).foldl
    (fun d e => d.set e.key.value e.value.value) (.bare kind span)

/-- Adds a directive, unless there is one of its kind. -/
def Draft.declareDirective (o : Options) (fs : FileSystem) (d : Draft)
    (b : Description.DirectiveBlock) : Draft :=
  let name := b.name.value
  match Directive.Kind.ofName? name with
  | none => d.report (.unsupportedDirective name) b.name.span
  | some kind =>
    if (d.grammar.directives.find? kind).isSome then
      d.report (.duplicateDirective name) b.name.span
    else
      let directive := Directive.ofEntries kind b.name.span b.entries
      (d.update (·.updateDirectives (·.push directive))).add
        (b.entries.flatMap (·.diagnostics o fs kind))

/-! ### Symbols -/

/-- Whether a production asks to ignore case. -/
def Description.Production.ignoresCase (p : Production) : Bool :=
  p.attributes.any (·.name.value = "IgnoreCase")

/-- Adds the terminal of a production with a pattern. -/
def Draft.declareTerminal [Engine] (d : Draft) (p : Description.Production) (pattern : String) :
    Draft :=
  let name := p.name.value
  match Engine.anchored pattern p.ignoresCase with
  | .error reason => d.report (.invalidPattern name reason) p.name.span
  | .ok matcher =>
    let d := if name = startName then d.report .startIsTerminal p.name.span else d
    let t := { Terminal.plain name pattern matcher p.name.span with ignoreCase := p.ignoresCase }
    match d.grammar.addTerminal? t with
    | none => d.report (.duplicateTerminal name) p.name.span
    | some (id, g) => p.attributes.foldl (Draft.addAttribute (.terminal id)) (d.update fun _ => g)

/-- Adds the nonterminal of a production with a rule, unless an earlier production declared it. -/
def Draft.declareNonterminal (d : Draft) (p : Description.Production) : Draft :=
  let name := p.name.value
  match d.grammar.lookup? name with
  | some (.terminal _) => d.report (.nameClash name) p.name.span
  | some (.nonterminal id) => p.attributes.foldl (Draft.addAttribute (.nonterminal id)) d
  | none =>
    match d.grammar.addNonterminal? (.bare name p.name.span) with
    | none => d
    | some (id, g) =>
      p.attributes.foldl (Draft.addAttribute (.nonterminal id)) (d.update fun _ => g)

/-- Adds what an item declares. -/
def Draft.declareItem [Engine] (o : Options) (fs : FileSystem) (d : Draft) :
    Description.Item → Draft
  | .directive b => d.declareDirective o fs b
  | .production p =>
    match p.rhs with
    | .pattern pattern => d.declareTerminal p pattern.value
    | .rule _ => d.declareNonterminal p

/-- The draft of a description with all that it declares. -/
def Draft.ofDeclarations [Engine] (o : Options) (fs : FileSystem) (desc : Description) : Draft :=
  desc.items.foldl (Draft.declareItem o fs) (Draft.empty.declareLiterals desc)

end Descent
