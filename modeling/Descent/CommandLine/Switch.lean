/-!
# Switches

A switch is an argument that starts with a dash.  It is written with one letter behind one dash,
with a name behind two dashes, or in both ways; some switches take a value.
-/

namespace Descent.CommandLine

/-- The switches. -/
inductive Switch where
  | debug
  | dryRun
  | help
  | input
  | quiet
  | templates
  | version
  | verbose
  deriving DecidableEq, Repr

namespace Switch

/-- All switches, in the order in which they are listed. -/
def all : List Switch := [debug, dryRun, help, input, quiet, templates, version, verbose]

/-- The letter of a switch. -/
def letter? : Switch → Option Char
  | help => some 'h'
  | quiet => some 'q'
  | version => some 'V'
  | verbose => some 'v'
  | _ => none

/-- The name of a switch. -/
def name? : Switch → Option String
  | debug => some "debug"
  | dryRun => some "dry-run"
  | help => some "help"
  | input => some "input"
  | templates => some "templates"
  | version => some "version"
  | quiet | verbose => none

/-- What the value of a switch is, if it takes one. -/
def value? : Switch → Option String
  | input => some "FILE"
  | templates => some "DIR"
  | _ => none

/-- Whether a switch takes a value. -/
def takesValue (s : Switch) : Bool := s.value?.isSome

/-- Whether a switch can be given more than once. -/
def isRepeatable (s : Switch) : Bool := s = verbose

/-- What a switch is for. -/
def purpose : Switch → String
  | debug => "Generate code for the interactive host instead of a release build"
  | dryRun => "Do not write any generated files"
  | help => "Prints help information"
  | input => "Parse a sample input with the grammar"
  | quiet => "Silence all output"
  | templates => "Directory containing the templates directory"
  | version => "Prints version information"
  | verbose => "Increase message verbosity"

/-- The switch with a letter. -/
def ofLetter? (c : Char) : Option Switch := all.find? (·.letter? = some c)

/-- The switch with a name. -/
def ofName? (name : String) : Option Switch := all.find? (·.name? = some name)

/-- A letter as it is written. -/
def dashed (c : Char) : String := String.ofList ['-', c]

/-- A switch as it is written in short: with its name if it has one, and with its value. -/
def text (s : Switch) : String :=
  let written :=
    match s.name? with
    | some name => "--" ++ name
    | none => ((s.letter?).map dashed).getD ""
  match s.value? with
  | some value => s!"{written} <{value}>"
  | none => written

/-- All names, those of switches without a value first. -/
def names : List String :=
  [debug, dryRun, help, version, templates, input].filterMap name?

end Switch

end Descent.CommandLine
