import Descent.CommandLine.Usage
import Descent.Text.Similarity

/-!
# Arguments

The arguments of the command line are switches and the name of a grammar file.  Letters can share a
dash, a value follows its switch or an equals sign, and behind two dashes there are no switches any
more.  Reading stops at the first argument that cannot be, and at a switch that asks for help or for
the version.
-/

namespace Descent.CommandLine

/-- The arguments that were read. -/
structure Arguments where
  /-- The switches, each as often as it was given. -/
  switches : List Switch
  values : List (Switch × String)
  grammar? : Option String
  deriving DecidableEq, Repr

namespace Arguments

/-- No arguments. -/
def empty : Arguments := ⟨[], [], none⟩

/-- Whether a switch was given. -/
def has (a : Arguments) (s : Switch) : Bool := s ∈ a.switches

/-- The value of a switch. -/
def value? (a : Arguments) (s : Switch) : Option String := a.values.lookup s

/-- Adds a switch. -/
def addSwitch (a : Arguments) (s : Switch) : Arguments := { a with switches := a.switches ++ [s] }

/-- Adds the value of a switch. -/
def addValue (a : Arguments) (s : Switch) (v : String) : Arguments :=
  { a with values := a.values ++ [(s, v)] }

/-- Whether a switch that takes a value was given without one. -/
def lacksValue (a : Arguments) (s : Switch) : Bool :=
  s.takesValue && a.has s && (a.value? s).isNone

/-- Whether a switch was given more often than it can be. -/
def overuses (a : Arguments) (s : Switch) : Bool := !s.isRepeatable && 1 < a.switches.count s

end Arguments

/-- What can be wrong with arguments. -/
inductive Misuse where
  /-- An argument that cannot be, and the name of a switch that may be meant. -/
  | unexpected (argument : String) (meant? : Option String)
  | missingValue (s : Switch)
  | repeated (s : Switch)
  deriving DecidableEq, Repr

/-- The wording of a misuse.  A name that may be meant is shown in green. -/
def Misuse.message : Misuse → String
  | unexpected argument meant? =>
    let hint :=
      match meant? with
      | some name => s!"\n\tDid you mean \x1b[32m--\x1b[0m\x1b[32m{name}\x1b[0m?"
      | none => ""
    s!"Found argument '{argument}' which wasn't expected, or isn't valid in this context{hint}"
  | missingValue s => s!"The argument '{s.text}' requires a value but none was supplied"
  | repeated s =>
    s!"The argument '{s.text}' was provided more than once, but cannot be used multiple times"

/-- Why reading the arguments stops early. -/
inductive Stop where
  | help
  | version
  /-- Something is wrong; the usage shows the given switches. -/
  | misuse (m : Misuse) (switches : List Switch)
  deriving DecidableEq, Repr

/-- What is printed when reading stops. -/
def Stop.text : Stop → String
  | help => Help.text
  | version => versionLine
  | misuse m switches =>
    s!"error: {m.message}\n\n{usageWith switches}\n\nFor more information try --help\n"

namespace Arguments

/-- How far the arguments are read. -/
structure State where
  arguments : Arguments
  /-- A switch that still takes a value. -/
  pending? : Option Switch
  /-- Whether there are no switches any more. -/
  plain : Bool
  deriving DecidableEq, Repr

/-- The state before the first argument. -/
def State.start : State := ⟨.empty, none, false⟩

/-- Reads an argument that is no switch. -/
def readPlain (s : State) (argument : String) : Except Stop State :=
  match s.arguments.grammar? with
  | none => .ok { s with arguments := { s.arguments with grammar? := argument } }
  | some _ => .error (.misuse (.unexpected argument none) s.arguments.switches)

/-- Adds a switch without a value, unless it asks for something else than a run. -/
def readFlag (a : Arguments) : Switch → Except Stop Arguments
  | .help => .error .help
  | .version => .error .version
  | s => .ok (a.addSwitch s)

/-- Reads an argument with two dashes in front: a name, and a value behind an equals sign.  A value
that a switch does not take is ignored. -/
def readNamed (s : State) (argument : String) : Except Stop State := do
  let (name, value) := (argument.toList.dropWhile (· = '-')).span (· ≠ '=')
  let name := String.ofList name
  match Switch.ofName? name with
  | none =>
    let meant? := Text.closest? name Switch.names
    let switches := s.arguments.switches ++ (meant?.bind Switch.ofName?).toList
    throw (.misuse (.unexpected ("--" ++ name) meant?) switches)
  | some switch =>
    if !switch.takesValue then
      return { s with arguments := ← readFlag s.arguments switch, pending? := none }
    let a := s.arguments.addSwitch switch
    if value.isEmpty then return { s with arguments := a, pending? := switch }
    let value := String.ofList (value.dropWhile (· = '='))
    return { s with arguments := a.addValue switch value, pending? := none }

/-- Adds the switch of a letter. -/
def readLetter (a : Arguments) (c : Char) : Except Stop Arguments :=
  match Switch.ofLetter? c with
  | none => .error (.misuse (.unexpected (Switch.dashed c) none) a.switches)
  | some switch => readFlag a switch

/-- Reads an argument with one dash in front of letters. -/
def readLetters (s : State) (argument : String) : Except Stop State := do
  let letters := argument.toList.dropWhile (· = '-')
  return { s with arguments := ← letters.foldlM readLetter s.arguments, pending? := none }

/-- Whether an argument has the form of switches. -/
def looksLikeSwitch (argument : String) : Bool :=
  argument.startsWith "-" && argument ≠ "-"

/-- Reads an argument. -/
def step (s : State) (argument : String) : Except Stop State :=
  if s.plain then readPlain s argument
  else if argument = "--" then .ok { s with plain := true }
  else if looksLikeSwitch argument then
    if argument.startsWith "--" then readNamed s argument else readLetters s argument
  else
    match s.pending? with
    | some switch =>
      .ok { s with arguments := s.arguments.addValue switch argument, pending? := none }
    | none => readPlain s argument

/-- What is wrong with arguments that were read up to their end.  A switch at the end that lacks its
value comes first. -/
def misuse? (s : State) : Option Misuse :=
  let a := s.arguments
  ((s.pending?.toList ++ Switch.all).find? a.lacksValue).map .missingValue <|>
    (Switch.all.find? a.overuses).map .repeated

/-- Reads arguments. -/
def read (arguments : List String) : Except Stop Arguments := do
  let s ← arguments.foldlM step .start
  match misuse? s with
  | some m => throw (.misuse m s.arguments.switches)
  | none => return s.arguments

end Arguments

end Descent.CommandLine
