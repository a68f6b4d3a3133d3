import Descent.Description.Parsing
import Descent.Grammar.Body
import Descent.Grammar.Defaults
import Descent.Interpreter
import Descent.Program.Lowering

/-!
# Compilations

Compiling a description never fails: everything that is wrong with it is gathered.  A description
that cannot be read has no grammar; any other one that says where to start has a grammar and a
program, with or without diagnostics.
-/

namespace Descent

/-- A grammar that is complete, and its program. -/
structure Compilation.Product where
  grammar : Grammar
  program : Program

/-- The outcome of compiling a description. -/
structure Compilation where
  file : String
  product? : Option Compilation.Product
  diagnostics : List Diagnostic
  warnings : List Warning
  options : Options

namespace Compilation

/-- Completes a grammar and makes its program. -/
def Product.ofGrammar (g : Grammar) (o : Options) : Product :=
  let g := g.prepare o
  ⟨g, g.program⟩

/-- The warnings given while a grammar is completed and its program made. -/
def grammarWarnings (g : Grammar) : List Warning := g.firstWarnings ++ g.programWarnings

/-- Compiles a description. -/
def ofText [Engine] (fs : FileSystem) (o : Options) (text file : String) : Compilation :=
  match Description.parse text file with
  | (_, d :: ds) => ⟨file, none, d :: ds, [], o⟩
  | (desc, []) =>
    match Grammar.ofDescription o fs desc with
    | (none, ds) => ⟨file, none, ds, [], o⟩
    | (some g, ds) =>
      ⟨file, some (.ofGrammar g o), ds ++ g.firstSets.diagnostics, grammarWarnings g, o⟩

/-- The grammar, if there is one. -/
def grammar? (c : Compilation) : Option Grammar := c.product?.map (·.grammar)

/-- The product of a compilation that found nothing wrong. -/
def sound? (c : Compilation) : Option Product := if c.diagnostics.isEmpty then c.product? else none

/-- Whether there is a grammar and nothing is wrong with it. -/
def isOk (c : Compilation) : Bool := c.sound?.isSome

/-- The directory that emitted files are written to. -/
def outputDirectory? (c : Compilation) (fs : FileSystem) : Option Path := do
  let g ← c.grammar?
  c.options.output? fs (← g.directives.value? .overall "OutputPath")

/-- The interpreter of a grammar that nothing is wrong with. -/
def interpreter? (c : Compilation) : Option Interpreter :=
  c.sound?.map fun p => ⟨p.grammar, p.program⟩

end Compilation

end Descent
