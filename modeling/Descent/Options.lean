import Descent.FileSystem

/-!
# Options

Relative paths in a description are resolved against two directories: that of the output, and that
of the templates.  A path counts only if there is a directory.
-/

namespace Descent

/-- The directories against which paths are resolved. -/
structure Options where
  /-- The directory of relative output paths. -/
  baseDirectory : Path
  /-- The directory of relative template paths, and of the templates that come with the program. -/
  appDirectory : Path
  deriving DecidableEq, Repr

namespace Options

/-- A path below a directory, if there is a directory. -/
def existing? (fs : FileSystem) (root : Path) (value : String) : Option Path :=
  let path := root.join ⟨value⟩
  if fs.isDirectory path then some path else none

/-- The directory of an output path. -/
def output? (o : Options) (fs : FileSystem) (value : String) : Option Path :=
  existing? fs o.baseDirectory value

/-- The directory of a template path. -/
def template? (o : Options) (fs : FileSystem) (value : String) : Option Path :=
  existing? fs o.appDirectory value

/-- The directory of the templates of a language that come with the program. -/
def defaultTemplates (o : Options) (language : String) : Path :=
  (o.appDirectory.join ⟨"templates"⟩).join ⟨language⟩

end Options

end Descent
