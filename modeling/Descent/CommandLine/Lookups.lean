import Descent.CommandLine

/-!
# What a run looks at

A run looks at few locations only: those on the way to the files that its arguments name, and to the
directories and files that the directives of the grammar can lead to.  Who provides the files can
leave out all others.
-/

namespace Descent

namespace Path

/-- Goes on from a location by names, and gathers where it comes by. -/
def trailFrom (l : Location) : List String → List Location
  | [] => [l]
  | name :: names =>
    if name = "." then trailFrom l names
    else if name = ".." then l :: trailFrom l.dropLast names
    else l :: trailFrom (l ++ [name]) names

/-- The locations on the way of a path from a working directory. -/
def trail (working : Location) (p : Path) : List Location :=
  trailFrom (if p.isAbsolute then [] else working) p.components

end Path

namespace CommandLine

/-- The files that arguments name: the grammar and the sample input. -/
def namedFiles (arguments : List String) : List Path :=
  match Arguments.read arguments with
  | .ok a => (a.grammar?.toList ++ (a.value? .input).toList).map .mk
  | .error _ => []

/-- All values in the directives of a description. -/
def directiveValues (d : Description) : List String :=
  d.items.flatMap fun
    | .directive block => block.entries.map (·.value.value)
    | .production _ => []

/-- The values that directives have, or may have by default. -/
def possibleValues (o : Options) (d : Description) : List String :=
  directiveValues d ++ [Language.rust, .csharp].flatMap fun l =>
    (Directives.overallDefaults o l).map (·.2) ++ Artifact.Kind.all.map (·.defaultFileName l)

/-- The files of templates, in whatever language. -/
def templateFiles : List String :=
  [Language.rust, .csharp].flatMap fun l => Artifact.Kind.all.map (·.templateFile l)

/-- The paths that options and the values of directives can lead to. -/
def pathsFor (o : Options) (values : List String) : List Path :=
  values.flatMap fun value =>
    let output := o.baseDirectory.join ⟨value⟩
    let templates := o.appDirectory.join ⟨value⟩
    values.map (output.join ⟨·⟩) ++ templateFiles.map (templates.join ⟨·⟩)

/-- The paths that the directives of the grammar can lead to, given the files that the arguments
name. -/
def directivePaths (e : Surroundings) (files : FileSystem) (arguments : List String) : List Path :=
  match Arguments.read arguments with
  | .ok a =>
    match a.grammar? with
    | none => []
    | some grammar =>
      match files.read ⟨grammar⟩ with
      | .error _ => []
      | .ok bytes =>
        let o := optionsFor e a ⟨grammar⟩
        pathsFor o (possibleValues o (Description.parse (Text.lossy bytes) grammar).1)
  | .error _ => []

end CommandLine

end Descent
