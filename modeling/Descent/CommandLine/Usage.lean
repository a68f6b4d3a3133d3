import Descent.CommandLine.Switch

/-!
# Usage

How the program is called, in a line, and with a line for each switch.
-/

namespace Descent.CommandLine

/-- The name of the program. -/
def programName : String := "tinypg"

/-- The name and the version of the program. -/
def versionLine : String := programName ++ " 0.1.0\n"

/-- A call of the program with the given arguments. -/
def usageOf (arguments : List String) : String :=
  "USAGE:\n    " ++ " ".intercalate (programName :: arguments)

/-- A call of the program with anything that it takes. -/
def usage : String := usageOf ["[FLAGS]", "[OPTIONS]", "[GRAMMAR]"]

/-- A call of the program with the given switches, which are listed once and in order; without any,
the call with anything that it takes. -/
def usageWith (switches : List Switch) : String :=
  match Switch.all.filter (· ∈ switches) with
  | [] => usage
  | switches => usageOf (switches.map Switch.text)

namespace Help

/-- A number of blanks. -/
def blanks (n : Nat) : String := String.ofList (List.replicate n ' ')

/-- The ways in which a switch is written, its name always in the same column. -/
def spelling (s : Switch) : String :=
  match s.letter?, s.name? with
  | some _, none => s.text
  | some c, some _ => Switch.dashed c ++ ", " ++ s.text
  | none, _ => blanks 4 ++ s.text

/-- Lines of two columns. -/
def table (rows : List (String × String)) : String :=
  let width := (rows.map (·.1.length)).foldl max 0
  "\n".intercalate <| rows.map fun (left, right) =>
    blanks 4 ++ left ++ blanks (width + 4 - left.length) ++ right

/-- Lines of switches and what they are for. -/
def switchTable (switches : List Switch) : String :=
  table (switches.map fun s => (spelling s, s.purpose))

/-- The help on the program. -/
def text : String :=
  versionLine ++
  "Fabian Schuiki <fabian@schuiki.ch>\n" ++
  "Compiles LL(1) grammar descriptions into recursive-descent parsers\n\n" ++
  usage ++
  "\n\nFLAGS:\n" ++ switchTable (Switch.all.filter (!·.takesValue)) ++
  "\n\nOPTIONS:\n" ++ switchTable (Switch.all.filter (·.takesValue)) ++
  "\n\nARGS:\n" ++ table [("<GRAMMAR>", "The grammar file to compile")] ++
  "\n"

end Help

end Descent.CommandLine
