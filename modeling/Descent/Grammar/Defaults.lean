import Descent.Grammar.Survey
import Descent.Options

/-!
# Defaults

Before code is emitted, every directive is there and has a value for each key that needs one.  What
a description sets stays as it is.
-/

namespace Descent

namespace Directives

/-- Puts a directive of a kind at an index, unless there is one. -/
def ensureAt (kind : Directive.Kind) (index : Nat) (ds : Directives) : Directives :=
  if (ds.find? kind).isSome then ds else ds.insert index (.bare kind .nowhere)

/-- Puts a directive of a kind at the end, unless there is one. -/
def ensure (kind : Directive.Kind) (ds : Directives) : Directives :=
  ds.ensureAt kind ds.toList.length

/-- Sets values that have none. -/
def setDefaults (kind : Directive.Kind) (values : List (String × String)) (ds : Directives) :
    Directives :=
  ds.update kind fun d => values.foldl (fun d (key, value) => d.setDefault key value) d

/-- The language to emit. -/
def targetLanguage (ds : Directives) : Language := ds.language?.getD .rust

/-- The defaults of the directive about all of the emitted code. -/
def overallDefaults (o : Options) (l : Language) : List (String × String) :=
  [("Namespace", l.defaultNamespace), ("OutputPath", "./"), ("Language", l.name),
    ("TemplatePath", (o.defaultTemplates l.templateDirectory).text)]

/-- Whether a part is emitted when nothing is said about it. -/
def emittedByDefault (kind : Directive.Kind) : String :=
  if kind = .textHighlighter then "False" else "True"

/-- Asks for a part to be emitted or not, unless the directive says so. -/
def setGenerate (kind : Directive.Kind) (ds : Directives) : Directives :=
  ds.setDefaults kind [("Generate", emittedByDefault kind)]

/-- The directives with all defaults. -/
def withDefaults (o : Options) (ds : Directives) : Directives :=
  let ds := ds.ensureAt .overall 0
  let ds := ds.setDefaults .overall (overallDefaults o ds.targetLanguage)
  let ds := (ds.ensureAt .parser 1).ensureAt .scanner 1
  let ds := (ds.ensure .parseTree).ensure .textHighlighter
  (((ds.setGenerate .scanner).setGenerate .parser).setGenerate .parseTree).setGenerate
    .textHighlighter

end Directives

/-- The grammar with all defaults and its FIRST sets. -/
def Grammar.prepare (g : Grammar) (o : Options) : Grammar :=
  (g.updateDirectives (·.withDefaults o)).keepFirstSets

end Descent
