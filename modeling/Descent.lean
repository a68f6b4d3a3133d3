import Descent.ActionCode
import Descent.CommandLine
import Descent.CommandLine.Arguments
import Descent.CommandLine.Lookups
import Descent.CommandLine.Switch
import Descent.CommandLine.Usage
import Descent.Compilation
import Descent.Decimal.Reading
import Descent.Decimal.Shortest
import Descent.Description.Lexing
import Descent.Description.Parsing
import Descent.Description.Syntax
import Descent.Description.Token
import Descent.Diagnostic
import Descent.Directive
import Descent.Emission.Artifacts
import Descent.Emission.Basic
import Descent.Emission.Csharp
import Descent.Emission.Lines
import Descent.Emission.Rust
import Descent.FileSystem
import Descent.FirstSet
import Descent.FirstSets
import Descent.Grammar
import Descent.Grammar.Attribute
import Descent.Grammar.Body
import Descent.Grammar.Declaration
import Descent.Grammar.Defaults
import Descent.Grammar.Draft
import Descent.Grammar.Printing
import Descent.Grammar.Survey
import Descent.Interpreter
import Descent.Language
import Descent.Main
import Descent.Matcher
import Descent.Options
import Descent.OrderedMap
import Descent.ParseTree
import Descent.Path
import Descent.Pattern.Basic
import Descent.Pattern.Bracket
import Descent.Pattern.CharSet
import Descent.Pattern.Compiled
import Descent.Pattern.Escape
import Descent.Pattern.Flags
import Descent.Pattern.Footprint
import Descent.Pattern.Graph
import Descent.Pattern.Reading
import Descent.Position
import Descent.Program
import Descent.Program.Lowering
import Descent.Program.Printing
import Descent.Proofs.Agreement
import Descent.Proofs.Body
import Descent.Proofs.Caching
import Descent.Proofs.Calls
import Descent.Proofs.Compilation
import Descent.Proofs.Completeness
import Descent.Proofs.Coverage
import Descent.Proofs.Declarations
import Descent.Proofs.Derivation
import Descent.Proofs.Diagnostics
import Descent.Proofs.Draft
import Descent.Proofs.Expression
import Descent.Proofs.FirstSets
import Descent.Proofs.Follow
import Descent.Proofs.Growth
import Descent.Proofs.Layout
import Descent.Proofs.Leaves
import Descent.Proofs.LeftCorner
import Descent.Proofs.LeftRecursion
import Descent.Proofs.Lexing
import Descent.Proofs.LookAhead
import Descent.Proofs.Lowering
import Descent.Proofs.Numbering
import Descent.Proofs.Partition
import Descent.Proofs.PhraseCompleteness
import Descent.Proofs.PhraseSoundness
import Descent.Proofs.Phrases
import Descent.Proofs.Places
import Descent.Proofs.Position
import Descent.Proofs.Products
import Descent.Proofs.Recovery
import Descent.Proofs.Resolution
import Descent.Proofs.Run
import Descent.Proofs.Scanning
import Descent.Proofs.Segments
import Descent.Proofs.Selection
import Descent.Proofs.Soundness
import Descent.Proofs.Survey
import Descent.Proofs.Termination
import Descent.Proofs.Yield
import Descent.Rule
import Descent.Scanner
import Descent.Scanner.LineDirective
import Descent.Template
import Descent.Template.Csharp
import Descent.Template.Rust
import Descent.Template.Shipped
import Descent.Text.Ascii
import Descent.Text.Blank
import Descent.Text.ByteRange
import Descent.Text.Digit
import Descent.Text.Folding
import Descent.Text.Letter
import Descent.Text.Printable
import Descent.Text.Ranges
import Descent.Text.Similarity
import Descent.Text.Uppercase
import Descent.Text.Utf8
import Descent.Text.Word
import Descent.Token
import Descent.Value
import Descent.Workspace
import Descent.Proofs.Merging
import Descent.Proofs.LongestMatch
import Descent.Proofs.Paths
import Descent.Proofs.Publication
import Descent.Proofs.Templates
import Descent.Proofs.Symbols
import Descent.Proofs.Distinctness
import Descent.Proofs.Branching
import Descent.Proofs.Activations
import Descent.Proofs.Renumbering
import Descent.Proofs.Strings
import Descent.Proofs.Markers
import Descent.Proofs.Names
import Descent.Proofs.References
import Descent.Proofs.Quoting
import Descent.Proofs.Codes
import Descent.Proofs.Writing
import Descent.Proofs.Messages
import Descent.Proofs.Members
import Descent.Proofs.Substitution
import Descent.Proofs.Traversal
import Descent.Proofs.Defaults
import Descent.Proofs.Assembly
import Descent.Proofs.Origins
