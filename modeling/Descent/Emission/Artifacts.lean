import Descent.Compilation
import Descent.Emission.Csharp
import Descent.Emission.Rust

/-!
# Emitting artifacts

Every part that the directives ask for is emitted through its template.  A template that cannot be
read is reported and its part left out; without a directory of templates nothing is emitted.
-/

namespace Descent

namespace Emission

/-- The code of a slot in a language. -/
def slot (l : Language) (c : Context) (s : Slot) : String :=
  match l with
  | .rust => Rust.slot c s
  | .csharp => Csharp.slot c s

/-- What came of emitting. -/
structure Outcome where
  /-- The artifacts, unless the directory of templates is missing. -/
  artifacts? : Option (List Artifact)
  diagnostics : List Diagnostic
  warnings : List Warning
  deriving DecidableEq, Repr

/-- The outcome in which there are no artifacts yet. -/
def Outcome.start : Outcome := ⟨some [], [], []⟩

/-- What came of emitting two parts, one after the other. -/
def Outcome.append (a b : Outcome) : Outcome :=
  ⟨do pure ((← a.artifacts?) ++ (← b.artifacts?)), a.diagnostics ++ b.diagnostics,
    a.warnings ++ b.warnings⟩

/-- The warning that a parser to debug has no slot for its interface. -/
def debugWarnings (mode : Mode) (k : Artifact.Kind) (t : Template) : List Warning :=
  if mode = .debug ∧ k = .parser ∧ !t.has .parserInterface then
    [.noDebugSlot t.name Slot.parserInterface.marker]
  else []

/-- The name of the file that an artifact is written to. -/
def fileName (ds : Directives) (l : Language) (k : Artifact.Kind) : String :=
  (ds.value? k.directive "FileName").getD (k.defaultFileName l)

/-- Emits an artifact through a template. -/
def throughTemplate (c : Context) (l : Language) (k : Artifact.Kind) (text : String) : Outcome :=
  let (template, diagnostics) := Template.read (k.templateFile l) text
  let artifact : Artifact :=
    ⟨k, fileName c.grammar.directives l k, template.render (slot l c)⟩
  ⟨some [artifact], diagnostics, debugWarnings c.mode k template⟩

/-- Emits an artifact through its template in a directory. -/
def artifact (fs : FileSystem) (directory : Path) (c : Context) (l : Language)
    (k : Artifact.Kind) : Outcome :=
  let path := directory.join ⟨k.templateFile l⟩
  match fs.readText path with
  | .error e => ⟨some [], [(Problem.templateUnreadable path.text e.message).unlocated], []⟩
  | .ok text => throughTemplate c l k text

/-- The warning that no highlighter is emitted. -/
def highlighterWarnings (ds : Directives) : List Warning :=
  if ds.generate .textHighlighter then [.noHighlighter] else []

/-- Emits all artifacts that a grammar asks for. -/
def artifacts (fs : FileSystem) (o : Options) (c : Context) : Outcome :=
  let ds := c.grammar.directives
  let value? := ds.value? .overall "TemplatePath"
  match value?.bind (o.template? fs) with
  | none => ⟨none, [(Problem.templatesUnresolved (value?.getD "")).unlocated], []⟩
  | some directory =>
    let wanted := Artifact.Kind.all.filter fun k => ds.generate k.directive
    let outcomes := wanted.map (artifact fs directory c ds.targetLanguage)
    (outcomes.foldl Outcome.append .start).append ⟨some [], [], highlighterWarnings ds⟩

/-- Writes artifacts into a directory, up to the first that cannot be written.  The file system has
what was written, whether or not all was. -/
def write (fs : FileSystem) (directory : Path) :
    List Artifact → Except FileError (List Path) × FileSystem
  | [] => (.ok [], fs)
  | a :: as =>
    let path := directory.join ⟨a.fileName⟩
    match fs.write path a.text with
    | .error e => (.error e, fs)
    | .ok fs =>
      let (written, fs) := write fs directory as
      (written.map (path :: ·), fs)

end Emission

namespace Compilation

/-- Emits the artifacts of a compilation that found nothing wrong.  Otherwise, or if something goes
wrong now, there are diagnostics in their place. -/
def artifacts (c : Compilation) (fs : FileSystem) (mode : Emission.Mode) :
    Except (List Diagnostic) (List Artifact) × List Warning :=
  match c.sound? with
  | none => (.error c.diagnostics, [])
  | some p =>
    let outcome := Emission.artifacts fs c.options ⟨p.grammar, p.program, mode⟩
    match outcome.artifacts?, outcome.diagnostics with
    | some artifacts, [] => (.ok artifacts, outcome.warnings)
    | _, ds => (.error ds, outcome.warnings)

end Compilation

end Descent
