import Descent.CommandLine.Arguments
import Descent.Emission.Artifacts
import Descent.Grammar.Printing
import Descent.Pattern.Compiled
import Descent.Text.Utf8

/-!
# The command line

A run of the program compiles a grammar file, prints the grammar, writes the emitted files next to
it, and parses a sample input if there is one.  A run is a function of the arguments, the
surroundings and the files; it leaves behind what it printed, and the files.  Patterns are read by
`Pattern.engine`.
-/

namespace Descent.CommandLine

/-- Where the program runs. -/
structure Surroundings where
  /-- The working directory, from the root on. -/
  workingDirectory : Path
  /-- The directory in which the program keeps its templates. -/
  programDirectory : Path
  /-- The directory to use for templates in its place. -/
  home? : Option Path
  deriving DecidableEq, Repr

/-- Why a run fails. -/
inductive Failure where
  /-- The arguments are misused. -/
  | misuse
  /-- A file cannot be read. -/
  | unreadable
  /-- Something is wrong with the grammar, or the emitted files cannot be written. -/
  | refused
  /-- The fuel for parsing the sample input ran out. -/
  | unfinished
  deriving DecidableEq, Repr

/-- The exit code of a failed run. -/
def Failure.exitCode : Failure → Nat
  | misuse | unreadable => 1
  | refused => 10
  | unfinished => 100

/-- What a run has printed, and the files as it left them. -/
structure Session where
  output : String
  log : String
  files : FileSystem

/-- A part of a run.  A failure ends the run and keeps what was done. -/
abbrev Run := ExceptT Failure (StateM Session)

namespace Run

/-- Prints a text. -/
def print (text : String) : Run Unit := modify fun s => { s with output := s.output ++ text }

/-- Prints a text where errors are reported. -/
def report (text : String) : Run Unit := modify fun s => { s with log := s.log ++ text }

/-- Reports a text and fails. -/
def fail {α : Type} (text : String) (f : Failure) : Run α := do
  report text
  throw f

/-- Logs warnings, unless the arguments ask for silence. -/
def warn (a : Arguments) (ws : List Warning) : Run Unit :=
  unless a.has .quiet do
    report (String.join (ws.map fun w => s!"WARN - {w.message}\n"))

/-- Logs a message, if the arguments ask for it. -/
def inform (a : Arguments) (message : String) : Run Unit :=
  if a.has .verbose && !a.has .quiet then report s!"INFO - {message}\n" else pure ()

/-- The text of a file.  Bytes that are no text are replaced. -/
def readFile (path : Path) : Run String := do
  match fileContent (← get).files path with
  | .ok bytes => pure (Text.lossy bytes)
  | .error e => fail s!"cannot read {path.text}: {e.message}\n" .unreadable
where
  /-- The bytes of a file.  A directory can be opened but has no content. -/
  fileContent (files : FileSystem) (path : Path) : Except FileError (List UInt8) :=
    if files.isDirectory path then .error .noContent else files.read path

end Run

open Run

/-- The options for a grammar file. -/
def optionsFor (e : Surroundings) (a : Arguments) (grammar : Path) : Options where
  baseDirectory :=
    match grammar.parent? with
    | some p => if p.text.isEmpty then e.workingDirectory else p
    | none => e.workingDirectory
  appDirectory := ((a.value? .templates).map .mk).getD (e.home?.getD e.programDirectory)

/-- Compiles a grammar file and prints the grammar. -/
def compile (e : Surroundings) (a : Arguments) (grammar : Path) : Run Compilation := do
  let text ← readFile grammar
  let c := Compilation.ofText (← get).files (optionsFor e a grammar) text grammar.text
  warn a c.warnings
  match c.sound? with
  | none => fail (Diagnostic.report c.diagnostics) .refused
  | some p =>
    print (p.grammar.text ++ "\n")
    print (p.grammar.firstReport p.grammar.firstSets ++ "\n")
    pure c

/-- Emits the files of a grammar. -/
def emit (a : Arguments) (c : Compilation) : Run (List Artifact) := do
  let mode := if a.has .debug then .debug else .release
  let (artifacts, warnings) := c.artifacts (← get).files mode
  warn a warnings
  match artifacts with
  | .ok artifacts => pure artifacts
  | .error ds => fail (Diagnostic.report ds) .refused

/-- Writes the emitted files into the output directory. -/
def writeOutput (a : Arguments) (c : Compilation) (artifacts : List Artifact) : Run Unit := do
  let files := (← get).files
  match c.outputDirectory? files with
  | none => fail s!"output directory of {c.file} does not exist\n" .refused
  | some directory =>
    let (written, files) := Emission.write files directory artifacts
    modify fun s => { s with files }
    match written with
    | .ok paths => paths.forM fun p => inform a s!"wrote {p.text}"
    | .error e => fail s!"cannot write output to {directory.text}: {e.message}\n" .refused

/-- Parses a sample input, prints its tree and reports its errors. -/
def parseSample (fuel : Nat) (i : Interpreter) (input : Path) : Run Unit := do
  let text ← readFile input
  match i.parse? fuel text input.text with
  | none => throw .unfinished
  | some tree =>
    print tree.text
    tree.errors.forM fun d =>
      report s!"{input.text}{d.render}: error {Diagnostic.hexCode d.code}\n"

/-- What the program does with a grammar file. -/
def runGrammar (fuel : Nat) (e : Surroundings) (a : Arguments) (grammar : Path) : Run Unit := do
  let c ← compile e a grammar
  let artifacts ← emit a c
  if a.has .dryRun then artifacts.forM fun x => inform a s!"would write {x.fileName}"
  else writeOutput a c artifacts
  match a.value? .input, c.interpreter? with
  | some input, some i => parseSample fuel i ⟨input⟩
  | _, _ => pure ()

/-- What the program does. -/
def runArguments (fuel : Nat) (e : Surroundings) (arguments : List String) : Run Unit :=
  match Arguments.read arguments with
  | .error (.misuse m switches) => fail (Stop.misuse m switches).text .misuse
  | .error stop => print stop.text
  | .ok a =>
    match a.grammar? with
    | some grammar => runGrammar fuel e a ⟨grammar⟩
    | none => print s!"The interactive shell is not part of this build.\n{usage}\n"

/-- What a run of the program comes to. -/
structure Outcome where
  exitCode : Nat
  output : String
  log : String
  files : FileSystem

/-- Runs the program.  The fuel is for parsing the sample input. -/
def run (fuel : Nat) (e : Surroundings) (files : FileSystem) (arguments : List String) : Outcome :=
  let (result, s) := ((runArguments fuel e arguments).run ⟨"", "", files⟩)
  let exitCode :=
    match result with
    | .ok () => 0
    | .error f => f.exitCode
  ⟨exitCode, s.output, s.log, s.files⟩

end Descent.CommandLine
