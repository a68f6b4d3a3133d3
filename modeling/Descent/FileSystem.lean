import Descent.OrderedMap
import Descent.Path
import Descent.Text.Utf8

/-!
# File systems

A file system maps locations, lists of names from the root on, to directories and files.  Paths that
are not absolute start at the working directory.  Reading and writing fail with the reasons that an
operating system gives.
-/

namespace Descent

/-- Why a file cannot be read or written. -/
inductive FileError where
  | notFound
  | isDirectory
  | notDirectory
  /-- The file is not text. -/
  | notText
  /-- A directory has no content to look at. -/
  | noContent
  | nameTooLong
  /-- A path has a character that ends it too early. -/
  | nullCharacter
  | other (reason : String)
  deriving DecidableEq, Repr

/-- The wording of a reason. -/
def FileError.message : FileError → String
  | notFound => "No such file or directory (os error 2)"
  | isDirectory => "Is a directory (os error 21)"
  | notDirectory => "Not a directory (os error 20)"
  | notText => "stream did not contain valid UTF-8"
  | noContent => "No such device (os error 19)"
  | nameTooLong => "File name too long (os error 36)"
  | nullCharacter => "file name contained an unexpected NUL byte"
  | other reason => reason

/-- A place in a file system: the names from the root on. -/
abbrev Location := List String

/-- What a location holds. -/
inductive FileEntry where
  | directory
  | file (bytes : List UInt8)
  /-- Something that can be neither entered nor read. -/
  | closed (error : FileError)
  deriving DecidableEq

/-- A file system and its working directory. -/
structure FileSystem where
  entries : OrderedMap Location FileEntry
  working : Location
  deriving DecidableEq

namespace FileSystem

/-- The file system that has nothing but a working directory. -/
def bare (working : Location) : FileSystem :=
  ⟨⟨(List.range (working.length + 1)).map fun n => (working.take n, .directory)⟩, working⟩

/-- What a location holds, if it exists. -/
def get? (fs : FileSystem) (l : Location) : Option FileEntry := fs.entries.get? l

/-- Puts an entry at a location. -/
def put (fs : FileSystem) (l : Location) (e : FileEntry) : FileSystem :=
  { fs with entries := fs.entries.insert l e }

@[simp]
theorem get?_put_self (fs : FileSystem) (l : Location) (e : FileEntry) :
  (fs.put l e).get? l = some e
  := OrderedMap.get?_insert_self fs.entries l e

theorem get?_put_ne (fs : FileSystem) {l m : Location} (e : FileEntry) (h : m ≠ l) :
  (fs.put l e).get? m = fs.get? m
  := OrderedMap.get?_insert_ne fs.entries h e

/-- How many bytes a name may have. -/
def nameLimit : Nat := 255

/-- How many bytes a path may have. -/
def pathLimit : Nat := 4095

/-- Allows a name unless it has too many bytes. -/
def allowName (name : String) : Except FileError Unit :=
  if nameLimit < name.utf8ByteSize then .error .nameTooLong else .ok ()

/-- Allows a path unless, as it is written, it leads nowhere in any file system. -/
def allow (p : Path) : Except FileError Unit :=
  if p.text.contains '\x00' then .error .nullCharacter
  else if p.text.isEmpty then .error .notFound
  else if pathLimit < p.text.utf8ByteSize then .error .nameTooLong
  else .ok ()

/-- Goes on from a location by names; each location on the way has to be a directory. -/
def follow (fs : FileSystem) (l : Location) : List String → Except FileError Location
  | [] => .ok l
  | name :: names =>
    match fs.get? l with
    | some .directory =>
      if name = "." then follow fs l names
      else if name = ".." then follow fs l.dropLast names
      else do
        allowName name
        follow fs (l ++ [name]) names
    | some (.file _) => .error .notDirectory
    | some (.closed e) => .error e
    | none => .error .notFound

/-- Where a path starts. -/
def origin (fs : FileSystem) (p : Path) : Location := if p.isAbsolute then [] else fs.working

/-- What a path leads to. -/
def lookup (fs : FileSystem) (p : Path) : Except FileError FileEntry := do
  allow p
  let l ← fs.follow (fs.origin p) p.components
  match fs.get? l with
  | none => throw .notFound
  | some (.closed e) => throw e
  | some .directory => pure .directory
  | some (.file bytes) => if p.endsWithSlash then throw .notDirectory else pure (.file bytes)

/-- Whether a path leads to a directory. -/
def isDirectory (fs : FileSystem) (p : Path) : Bool :=
  match fs.lookup p with
  | .ok .directory => true
  | _ => false

/-- The content of a file. -/
def read (fs : FileSystem) (p : Path) : Except FileError (List UInt8) := do
  match ← fs.lookup p with
  | .file bytes => pure bytes
  | .directory => throw .isDirectory
  | .closed e => throw e

/-- The content of a file that is text. -/
def readText (fs : FileSystem) (p : Path) : Except FileError String := do
  match Text.decode? (← fs.read p) with
  | some s => pure s
  | none => throw .notText

/-- The names on a path with a name at the end that a file can have. -/
def fileName? (p : Path) : Option (List String × String) :=
  match p.components.getLast? with
  | none => none
  | some name =>
    if name = "." ∨ name = ".." ∨ p.endsWithSlash then none else some (p.components.dropLast, name)

/-- Makes a file with the given text, or replaces the one that is there. -/
def write (fs : FileSystem) (p : Path) (text : String) : Except FileError FileSystem := do
  allow p
  match fileName? p with
  | none =>
    let _ ← fs.follow (fs.origin p) (p.components.dropLast ++ ["."])
    throw .isDirectory
  | some (names, name) =>
    let l ← fs.follow (fs.origin p) (names ++ ["."])
    allowName name
    match fs.get? (l ++ [name]) with
    | some .directory => throw .isDirectory
    | some (.closed e) => throw e
    | _ => pure (fs.put (l ++ [name]) (.file (Text.encode text)))

end FileSystem

end Descent
