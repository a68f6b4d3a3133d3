import Descent.Pattern.Basic
import Descent.Pattern.Flags
import Descent.Text.Ascii

/-!
# Escapes of patterns

What stands after a backslash: characters by their code, sets of characters, and assertions.  In
the extended notation blanks may stand between the digits of a code.  The escapes of properties of
Unicode, `\p` and `\P`, are left out and read as unknown ones.
-/

namespace Descent.Pattern

/-- What an escape stands for. -/
inductive Escaped where
  | char (c : Char)
  | set (s : CharSet)
  | look (l : Look)
  deriving DecidableEq, Repr

/-- The character of a list of hexadecimal digits. -/
def charOfHex? (digits : List Char) : Except PatternError Char :=
  let n := Text.hexadecimalValue digits
  if digits.isEmpty || !digits.all Text.isHexDigit then .error .codePoint
  else if n.isValidChar then .ok (Char.ofNat n)
  else .error .codePoint

/-- Reads the digits of a hexadecimal escape: `count` of them, or any number in braces. -/
def readHex (f : Flags) (count : Nat) (cs : List Char) : Except PatternError (Char × List Char) :=
  match f.skip cs with
  | '{' :: cs =>
    match f.takeWhile (· ≠ '}') (f.skip cs) with
    | (digits, _ :: rest) => do pure (← charOfHex? digits, rest)
    | (_, []) => .error .escapeUnfinished
  | cs =>
    match f.take? count cs with
    | some (digits, rest) => do pure (← charOfHex? digits, rest)
    | none => .error .escapeUnfinished

/-- The boundaries that can be asked for by name after an escaped `b`. -/
def namedBoundaries : List (String × Look) :=
  [("start", .wordStart), ("end", .wordEnd), ("start-half", .wordStartHalf),
    ("end-half", .wordEndHalf)]

/-- Reads what may follow an escaped `b`: the name of a boundary in braces.  Braces that do not
begin with a letter or a minus belong to a repetition. -/
def readBoundary (f : Flags) (cs : List Char) : Except PatternError (Escaped × List Char) :=
  let isNameChar := fun c => Text.isAsciiLetter c || c == '-'
  match cs with
  | '{' :: inner =>
    match f.takeWhile isNameChar (f.skip inner) with
    | (_, []) => .error .escapeUnfinished
    | ([], _) => .ok (.look .wordBoundary, cs)
    | (name, c :: rest) =>
      match namedBoundaries.lookup (String.ofList name) with
      | some l => if c = '}' then .ok (.look l, rest) else .error .escapeUnknown
      | none => .error .escapeUnknown
  | _ => .ok (.look .wordBoundary, cs)

/-- Whether an escaped character that has no other meaning stands for itself. -/
def escapesItself (c : Char) : Bool :=
  c.toNat < 128 && !Text.isAsciiLetter c && !Text.isAsciiDigit c && c != '<' && c != '>'

/-- Reads an escape after its backslash. -/
def readEscape (f : Flags) : List Char → Except PatternError (Escaped × List Char)
  | [] => .error .escapeUnfinished
  | c :: cs =>
    match c with
    | 'x' => do let (d, rest) ← readHex f 2 cs; pure (.char d, rest)
    | 'u' => do let (d, rest) ← readHex f 4 cs; pure (.char d, rest)
    | 'U' => do let (d, rest) ← readHex f 8 cs; pure (.char d, rest)
    | 'd' => .ok (.set CharSet.digit, cs)
    | 'D' => .ok (.set CharSet.digit.compl, cs)
    | 's' => .ok (.set CharSet.blank, cs)
    | 'S' => .ok (.set CharSet.blank.compl, cs)
    | 'w' => .ok (.set CharSet.word, cs)
    | 'W' => .ok (.set CharSet.word.compl, cs)
    | 'a' => .ok (.char '\x07', cs)
    | 'f' => .ok (.char '\x0c', cs)
    | 't' => .ok (.char '\t', cs)
    | 'n' => .ok (.char '\n', cs)
    | 'r' => .ok (.char '\r', cs)
    | 'v' => .ok (.char '\x0b', cs)
    | 'A' => .ok (.look .textStart, cs)
    | 'z' => .ok (.look .textEnd, cs)
    | 'b' => readBoundary f cs
    | 'B' => .ok (.look .noWordBoundary, cs)
    | '<' => .ok (.look .wordStart, cs)
    | '>' => .ok (.look .wordEnd, cs)
    | c =>
      if Text.isAsciiDigit c then .error .backreference
      else if escapesItself c then .ok (.char c, cs)
      else .error .escapeUnknown

end Descent.Pattern
