import Descent.Emission.Basic
import Descent.FileSystem
import Descent.Template.Csharp
import Descent.Template.Rust

/-!
# Templates that come with the program
-/

namespace Descent.Template

/-- The text of the template of an artifact that comes with the program. -/
def shipped : Language → Artifact.Kind → String
  | .rust, .scanner => Rust.scanner
  | .rust, .parser => Rust.parser
  | .rust, .parseTree => Rust.parseTree
  | .csharp, .scanner => Csharp.scanner
  | .csharp, .parser => Csharp.parser
  | .csharp, .parseTree => Csharp.parseTree

/-- The files of the templates, each with its directory. -/
def shippedFiles : List (String × String × String) :=
  [Language.rust, Language.csharp].flatMap fun l =>
    Artifact.Kind.all.map fun k => (l.templateDirectory, k.templateFile l, shipped l k)

end Descent.Template

namespace Descent.FileSystem

/-- Puts the templates that come with the program into a directory. -/
def withTemplates (fs : FileSystem) (l : Location) : FileSystem :=
  Template.shippedFiles.foldl
    (fun fs (directory, name, text) =>
      ((fs.put l .directory).put (l ++ [directory]) .directory).put (l ++ [directory, name])
        (.file (Text.encode text)))
    fs

end Descent.FileSystem
