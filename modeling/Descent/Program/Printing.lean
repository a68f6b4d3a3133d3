import Descent.Grammar
import Descent.Program

/-!
# Printed programs

A program is printed a statement a line, with bodies indented.
-/

namespace Descent.Program

/-- Four blanks for every level. -/
def indent (depth : Nat) : String := String.ofList (List.replicate (4 * depth) ' ')

/-- Terminals with blanks between them. -/
def terminalsText (g : Grammar) (ts : List TerminalId) : String :=
  " ".intercalate (ts.map fun t => g.symbolText (.terminal t))

mutual

/-- The lines of a statement. -/
def stmtText (g : Grammar) (depth : Nat) : Stmt → String
  | .expect t _ => indent depth ++ "expect " ++ g.symbolText (.terminal t) ++ "\n"
  | .call n => indent depth ++ "call " ++ g.symbolText (.nonterminal n) ++ "\n"
  | .optional ts body =>
    indent depth ++ "if " ++ terminalsText g ts ++ "\n" ++ stmtsText g (depth + 1) body
  | .loop ts body atLeastOnce =>
    indent depth ++ (if atLeastOnce then "do-while " else "while ") ++ terminalsText g ts ++ "\n" ++
      stmtsText g (depth + 1) body
  | .dispatch _ arms _ => indent depth ++ "switch\n" ++ armsText g depth arms

/-- The lines of statements. -/
def stmtsText (g : Grammar) (depth : Nat) : List Stmt → String
  | [] => ""
  | s :: ss => stmtText g depth s ++ stmtsText g depth ss

/-- The lines of an arm. -/
def armText (g : Grammar) (depth : Nat) : Arm → String
  | .mk ts body =>
    indent depth ++ "  case " ++ terminalsText g ts ++ "\n" ++ stmtsText g (depth + 1) body

/-- The lines of arms. -/
def armsText (g : Grammar) (depth : Nat) : List Arm → String
  | [] => ""
  | a :: as => armText g depth a ++ armsText g depth as

end

/-- The printed form of a program. -/
def text (p : Program) (g : Grammar) : String :=
  String.join (p.routines.map fun r => r.name ++ ":\n" ++ stmtsText g 1 r.body)

end Descent.Program
