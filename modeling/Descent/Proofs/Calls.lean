import Descent.Engine
import Descent.Interpreter

/-!
# Calls of a scanner

A scanner is driven by calls: a text is given to it, and then its tokens are looked at and consumed,
or empty ones are made at the current place (`Scanner.Call`).  The transcript of calls pairs each of
them with what it returned (`Scanner.transcript`).  What calls return depends on those before them
only by the state that these leave (`Scanner.transcript_append`).
-/

namespace Descent

namespace Scanner

variable {κ : Type}

/-- A call of a scanner. -/
inductive Call (κ : Type) where
  /-- Gives a text to the scanner. -/
  | start (text file : String)
  /-- Looks at the next token. -/
  | lookAhead (expected : List κ)
  /-- Consumes the next token. -/
  | scan (expected : List κ)
  /-- Makes an empty token at the current place. -/
  | here (kind : κ)
  deriving DecidableEq, Repr

namespace Call

/-- Whether a call gives a text to the scanner. -/
def isStart : Call κ → Bool
  | start .. => true
  | _ => false

/-- Whether a call looks at the next token and leaves it there. -/
def isLookAhead : Call κ → Bool
  | lookAhead _ => true
  | _ => false

/-- Whether a call consumes the next token. -/
def isScan : Call κ → Bool
  | scan _ => true
  | _ => false

end Call

variable [DecidableEq κ] [TokenKind κ]

/-- The token that a call returns, if it returns one, and the state after it. -/
def call (s : Scanner κ) (st : State κ) : Call κ → Option (Token κ) × State κ
  | .start text file => (none, .start text file)
  | .lookAhead expected => (some (s.lookAhead st expected).1, (s.lookAhead st expected).2)
  | .scan expected => (some (s.scan st expected).1, (s.scan st expected).2)
  | .here kind => (some (st.here kind), st)

/-- The state after calls. -/
def after (s : Scanner κ) (st : State κ) (cs : List (Call κ)) : State κ :=
  cs.foldl (fun st c => (s.call st c).2) st

/-- Calls, each with the token that it returned. -/
def transcript (s : Scanner κ) : State κ → List (Call κ) → List (Call κ × Option (Token κ))
  | _, [] => []
  | st, c :: cs => (c, (s.call st c).1) :: transcript s (s.call st c).2 cs

/-- The tokens that calls return, in order. -/
def returned (s : Scanner κ) (st : State κ) (cs : List (Call κ)) : List (Token κ) :=
  (s.transcript st cs).filterMap Prod.snd

/-- The tokens that calls consume, in order. -/
def consumed (s : Scanner κ) (st : State κ) (cs : List (Call κ)) : List (Token κ) :=
  ((s.transcript st cs).filter (·.1.isScan)).filterMap Prod.snd

variable (s : Scanner κ) (st : State κ)

@[simp]
theorem after_nil :
  s.after st [] = st
  := rfl

@[simp]
theorem after_cons (c : Call κ) (cs : List (Call κ)) :
  s.after st (c :: cs) = s.after (s.call st c).2 cs
  := rfl

theorem after_append (cs ds : List (Call κ)) :
  s.after st (cs ++ ds) = s.after (s.after st cs) ds
  := List.foldl_append

@[simp]
theorem transcript_nil :
  s.transcript st [] = []
  := rfl

@[simp]
theorem transcript_cons (c : Call κ) (cs : List (Call κ)) :
  s.transcript st (c :: cs) = (c, (s.call st c).1) :: s.transcript (s.call st c).2 cs
  := rfl

theorem transcript_append (cs ds : List (Call κ)) :
  s.transcript st (cs ++ ds) = s.transcript st cs ++ s.transcript (s.after st cs) ds
  := by
  induction cs generalizing st with
  | nil => rfl
  | cons c cs ih => rw [List.cons_append, transcript_cons, transcript_cons, ih]; rfl

theorem returned_append (cs ds : List (Call κ)) :
  s.returned st (cs ++ ds) = s.returned st cs ++ s.returned (s.after st cs) ds
  := by simp only [returned, transcript_append, List.filterMap_append]

theorem consumed_append (cs ds : List (Call κ)) :
  s.consumed st (cs ++ ds) = s.consumed st cs ++ s.consumed (s.after st cs) ds
  := by simp only [consumed, transcript_append, List.filter_append, List.filterMap_append]

theorem returned_cons (c : Call κ) (cs : List (Call κ)) :
  s.returned st (c :: cs) = s.returned st [c] ++ s.returned (s.call st c).2 cs
  := s.returned_append st [c] cs

theorem consumed_cons (c : Call κ) (cs : List (Call κ)) :
  s.consumed st (c :: cs) = s.consumed st [c] ++ s.consumed (s.call st c).2 cs
  := s.consumed_append st [c] cs

/-- Only scans, and texts that are given to the scanner, move it. -/
theorem cursor_call {c : Call κ} (hstart : ¬ c.isStart) (hscan : ¬ c.isScan) :
  (s.call st c).2.cursor = st.cursor
  := by
  match c with
  | .start .. => exact absurd rfl hstart
  | .scan _ => exact absurd rfl hscan
  | .lookAhead _ => rfl
  | .here _ => rfl

/-! ### Scanners of patterns -/

/-- A scanner of terminals with given patterns, in order. -/
def ofPatterns [Engine] (patterns : List String) (skip : List TerminalId) :
    Scanner SymbolKind where
  patterns := patterns.zipIdx.map fun (pattern, index) =>
    (.terminal ⟨index⟩, (Engine.anchored pattern false).toOption.getD .never)
  skip := skip.map .terminal
  fileAndLine := none

end Scanner

end Descent
