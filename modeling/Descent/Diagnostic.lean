import Descent.Position

/-!
# Diagnostics

A diagnostic is a numbered message about a place of a text, or about no place at all.  Reading and
compiling a description, emitting code and parsing a text all report in this form; the number tells
them apart.  `Problem` lists the causes that the compiler knows, with number and wording, and
`Warning` the oddities that do not stop it.
-/

namespace Descent

/-- A numbered message with the place it is about; line 0 stands for no place. -/
structure Diagnostic where
  code : Nat
  message : String
  file : String
  line : Nat
  column : Nat
  position : Nat
  length : Nat
  deriving DecidableEq, Repr

namespace Diagnostic

/-- A diagnostic about a span. -/
def located (code : Nat) (message : String) (span : Span) : Diagnostic :=
  ⟨code, message, span.file, span.line, span.column, span.start, span.length⟩

/-- A diagnostic about no place. -/
def unlocated (code : Nat) (message : String) : Diagnostic := .located code message .nowhere

/-- A text without its line feeds. -/
def onOneLine (s : String) : String := String.ofList (s.toList.filter (· ≠ '\n'))

/-- The wording for a token that is not what the parser waits for. -/
def unexpectedMessage (found expected : String) : String :=
  s!"Unexpected token '{onOneLine found}' found. Expected {expected}"

/-- The place and the message. -/
def render (d : Diagnostic) : String := s!"({d.line},{d.column}): {d.message}"

/-- A number in capital hexadecimal digits, at least four of them. -/
def hexCode (n : Nat) : String :=
  let digits := (Nat.toDigits 16 n).map Char.toUpper
  "0x" ++ String.ofList (List.replicate (4 - digits.length) '0' ++ digits)

/-- The line of a diagnostic in a report. -/
def reportLine (d : Diagnostic) : String :=
  if d.file = "" then s!"error {hexCode d.code}: {d.message}\n"
  else s!"{d.file}{d.render}: error {hexCode d.code}\n"

/-- The report of a list of diagnostics, a line for each. -/
def report (ds : List Diagnostic) : String := String.join (ds.map reportLine)

/-- The number of an error raised by a parser that found no alternative for its lookahead. -/
def noAlternative : Nat := 0x0002

/-- The number of an error raised by a parser that consumed another token than it expected. -/
def unexpectedToken : Nat := 0x1001

/-- Whether a number belongs to the errors that parsers raise on their input. -/
def isRuntime (code : Nat) : Bool := code == noAlternative || code == unexpectedToken

end Diagnostic

/-! ### Causes -/

/-- The constructs of a description that an end of the text can leave open. -/
inductive Unterminated where
  | comment
  | string
  | codeBlock
  deriving DecidableEq, Repr

/-- The name of a construct that was left open. -/
def Unterminated.name : Unterminated → String
  | comment => "comment"
  | string => "string"
  | codeBlock => "code block"

/-- What can be wrong with a description, or with the templates it is emitted through. -/
inductive Problem where
  | unexpected (found expected : String)
  | unterminated (what : Unterminated)
  | unmatchedVariable (name : String)
  | invalidPattern (name reason : String)
  | startIsTerminal
  | duplicateTerminal (name : String)
  | nameClash (name : String)
  | noNameLeft (text : String)
  | startRequired
  | duplicateDirective (name : String)
  | unsupportedDirective (name : String)
  | unsupportedKey (key : String)
  | attributeNotAllowed (name : String)
  | unsupportedAttribute (name : String)
  | invalidParameter (text : String)
  | parameterRange (text : String)
  | duplicateAttribute (name : String)
  | parameterCount (name : String)
  | parameterType (text : String)
  | undeclaredOperand (name : String)
  | undeclaredSymbol (name : String)
  | leftRecursion (name : String)
  | templatePath (value : String)
  | outputPath (value : String)
  | unsupportedLanguage (value : String)
  | templatesUnresolved (value : String)
  | templateUnreadable (path reason : String)
  | unknownMarker (marker template : String)
  deriving DecidableEq, Repr

namespace Problem

/-- The number of a problem. -/
def code : Problem → Nat
  | unexpected .. => 0x1010
  | unterminated _ => 0x1011
  | unmatchedVariable _ => 0x1016
  | invalidPattern .. => 0x1020
  | startIsTerminal => 0x1021
  | duplicateTerminal _ => 0x1022
  | nameClash _ => 0x1023
  | noNameLeft _ => 0x1023
  | startRequired => 0x0024
  | duplicateDirective _ => 0x1030
  | unsupportedDirective _ => 0x1031
  | unsupportedKey _ => 0x1034
  | attributeNotAllowed _ => 0x1035
  | unsupportedAttribute _ => 0x1036
  | invalidParameter _ => 0x1037
  | parameterRange _ => 0x1038
  | duplicateAttribute _ => 0x1039
  | parameterCount _ => 0x103A
  | parameterType _ => 0x103A
  | undeclaredOperand _ => 0x1042
  | undeclaredSymbol _ => 0x1043
  | leftRecursion _ => 0x1050
  | templatePath _ => 0x1060
  | outputPath _ => 0x1061
  | unsupportedLanguage _ => 0x1062
  | templatesUnresolved _ => 0x1063
  | templateUnreadable .. => 0x1064
  | unknownMarker .. => 0x1065

/-- The wording of a problem. -/
def message : Problem → String
  | unexpected found expected => Diagnostic.unexpectedMessage found expected
  | unterminated what => s!"Unterminated {what.name}"
  | unmatchedVariable name => s!"Variable ${name} cannot be matched."
  | invalidPattern name reason =>
    s!"regular expression for '{name}' results in error:" ++
      if reason.isEmpty then "" else " " ++ reason
  | startIsTerminal => "'Start' symbol cannot be a regular expression."
  | duplicateTerminal name => s!"Terminal already declared: {name}"
  | nameClash name => s!"Non terminal already declared: {name}"
  | noNameLeft text => s!"no name is left for literal '{text}'"
  | startRequired => "The grammar requires 'Start' to be a production rule."
  | duplicateDirective name => s!"Directive '{name}' is already defined"
  | unsupportedDirective name => s!"Directive '{name}' is not supported"
  | unsupportedKey key => s!"Directive attribute '{key}' is not supported"
  | attributeNotAllowed name => s!"Attribute for non-terminal rule not allowed: {name}"
  | unsupportedAttribute name => s!"Attribute not supported: {name}"
  | invalidParameter text => s!"Attribute parameter is not a valid value: {text}"
  | parameterRange text => s!"Attribute parameter is not a valid value: {text}"
  | duplicateAttribute name => s!"Attribute already defined for this symbol: {name}"
  | parameterCount name => s!"Attribute {name} has too many or missing parameters"
  | parameterType text => s!"Parameter {text} is of incorrect type"
  | undeclaredOperand name => s!"Symbol '{name}' is not declared."
  | undeclaredSymbol name => s!"Symbol '{name}' is not declared."
  | leftRecursion name => s!"Left recursion detected for '{name}'"
  | templatePath value => s!"Template path '{value}' does not exist"
  | outputPath value => s!"Output path '{value}' does not exist"
  | unsupportedLanguage value => s!"Language '{value}' is not supported"
  | templatesUnresolved value => s!"Template path '{value}' cannot be resolved"
  | templateUnreadable path reason => s!"Template file '{path}' cannot be read: {reason}"
  | unknownMarker marker template => s!"Unknown template marker '<%{marker}%>' in {template}"

/-- The diagnostic of a problem found at a span. -/
def located (p : Problem) (span : Span) : Diagnostic := .located p.code p.message span

/-- The diagnostic of a problem that has no place. -/
def unlocated (p : Problem) : Diagnostic := .unlocated p.code p.message

end Problem

/-! ### Warnings -/

/-- What is odd about a grammar or a template without being wrong. -/
inductive Warning where
  | leftRecursion (name : String)
  | noAlternatives (name : String)
  | neverSelected (rule : String)
  | neverContinued (rule : String)
  | alreadySelects (terminal rule : String)
  | noDebugSlot (template slot : String)
  | noHighlighter
  deriving DecidableEq, Repr

/-- The wording of a warning. -/
def Warning.message : Warning → String
  | leftRecursion name => s!"left recursion through {name}"
  | noAlternatives name => s!"nonterminal {name} has no alternatives"
  | neverSelected rule => s!"optional {rule} can never be selected"
  | neverContinued rule => s!"repetition {rule} can never be continued"
  | alreadySelects terminal rule =>
    s!"{terminal} already selects an earlier alternative than {rule}"
  | noDebugSlot template slot =>
    s!"template {template} has no {slot} slot; the parser will not implement the debug interface"
  | noHighlighter => "text highlighter generation is not supported; ignoring"

end Descent
