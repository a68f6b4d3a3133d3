import Descent.Rule

/-!
# Programs

A parser as a program: a routine for every nonterminal, made of statements that consume tokens,
call routines and branch on the next token.
-/

namespace Descent

mutual

/-- A statement of a routine. -/
inductive Stmt where
  /-- Consumes a token.  If it is not the terminal, an error names what was expected and the
  routine returns. -/
  | expect (terminal : TerminalId) (expected : String)
  | call (nonterminal : NonterminalId)
  /-- Runs the body if the next token is one of the terminals. -/
  | optional (lookahead : List TerminalId) (body : List Stmt)
  /-- Runs the body for as long as the next token is one of the terminals, and once before if it
  runs at least once. -/
  | loop (lookahead : List TerminalId) (body : List Stmt) (atLeastOnce : Bool)
  /-- Runs the arm that the next token selects.  If there is none, an error names what was expected
  and the routine returns. -/
  | dispatch (lookahead : List TerminalId) (arms : List Arm) (expected : String)
  deriving Repr

/-- An alternative of a dispatch and the terminals that select it. -/
inductive Arm where
  | mk (terminals : List TerminalId) (body : List Stmt)
  deriving Repr

end

namespace Arm

/-- The terminals that select an arm. -/
def terminals : Arm → List TerminalId
  | mk ts _ => ts

/-- The statements of an arm. -/
def body : Arm → List Stmt
  | mk _ ss => ss

end Arm

/-- The routine of a nonterminal. -/
structure Routine where
  nonterminal : NonterminalId
  name : String
  body : List Stmt
  deriving Repr

/-- A program: a routine for every nonterminal, in order. -/
structure Program where
  routines : List Routine
  deriving Repr

namespace Program

/-- The routine of a nonterminal. -/
def routine? (p : Program) (n : NonterminalId) : Option Routine :=
  p.routines.find? (·.nonterminal = n)

/-- Names to choose from as a message lists them: "A", "A or B", "A, B, or C". -/
def expectedList : List String → String
  | [] => ""
  | [a] => a
  | [a, b] => a ++ " or " ++ b
  | names => String.join ((names.dropLast.map (· ++ ", ")) ++ ["or ", names.getLastD ""])

end Program

end Descent
