import Descent.CommandLine.Lookups
import Descent.Template.Shipped

/-!
# The program

Fetches the files that a run looks at, runs, prints, and writes the files that the run changed.
-/

namespace Descent

namespace Disk

/-- The path of a location. -/
def pathOf (l : Location) : Path := ⟨"/" ++ "/".intercalate l⟩

/-- The location of an absolute path. -/
def locationOf (text : String) : Location := (Path.mk text).components

/-- The reason that an error gives. -/
def reason : IO.Error → FileError
  | .noFileOrDirectory .. => .notFound
  | .inappropriateType .. => .isDirectory
  | .permissionDenied .. => .other "Permission denied (os error 13)"
  | e => .other (toString e)

/-- What a location on disk holds. -/
def inspect (l : Location) : IO (Option FileEntry) := do
  let path := (← IO.currentDir) / (pathOf l).text
  if ← path.isDir then return some .directory
  if !(← path.pathExists) then return none
  match ← (IO.FS.readBinFile path).toBaseIO with
  | .ok bytes => return some (.file bytes.data.toList)
  | .error e => return some (.closed (reason e))

/-- Adds a location as it is on disk, unless it is there already. -/
def fetch (files : FileSystem) (l : Location) : IO FileSystem := do
  if (files.get? l).isSome then return files
  match ← inspect l with
  | some e => return files.put l e
  | none => return files

/-- Adds the locations on the way of paths. -/
def fetchPaths (files : FileSystem) (paths : List Path) : IO FileSystem :=
  (paths.flatMap (·.trail files.working)).foldlM fetch files

/-- Writes the files that have changed. -/
def store (before after : FileSystem) : IO Unit :=
  after.entries.entries.forM fun (l, e) => do
    match e with
    | .file bytes =>
      unless before.get? l = some e do
        IO.FS.writeBinFile (pathOf l).text ⟨bytes.toArray⟩
    | _ => pure ()

end Disk

namespace CommandLine

/-- Where this program runs. -/
def surroundings : IO Surroundings := do
  let home? ← IO.getEnv "TINYPG_HOME"
  return ⟨⟨toString (← IO.currentDir)⟩, ⟨toString (← IO.appDir)⟩, home?.map .mk⟩

/-- The templates of the program, which are in its directory unless there are others. -/
def withOwnTemplates (e : Surroundings) (files : FileSystem) : IO FileSystem := do
  let l := Disk.locationOf e.programDirectory.text ++ ["templates"]
  let files ← Disk.fetchPaths files [Disk.pathOf l]
  if (files.get? l).isSome then return files else return files.withTemplates l

end CommandLine

end Descent

open Descent CommandLine in
def main (arguments : List String) : IO UInt32 := do
  let e ← surroundings
  let files := FileSystem.bare (Disk.locationOf e.workingDirectory.text)
  let files ← withOwnTemplates e files
  let files ← Disk.fetchPaths files (namedFiles arguments)
  let files ← Disk.fetchPaths files (directivePaths e files arguments)
  let outcome := run (Nat.pow 2 62) e files arguments
  Disk.store files outcome.files
  IO.print outcome.output
  IO.eprint outcome.log
  return outcome.exitCode.toUInt32
