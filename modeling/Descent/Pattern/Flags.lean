import Descent.Text.Blank

/-!
# Flags of patterns

The flags that decide how a pattern is read, and the blanks and comments that the extended notation
skips.
-/

namespace Descent

/-- What can be wrong with the text of a pattern. -/
inductive PatternError where
  | groupUnclosed
  | groupUnopened
  | groupName
  | groupNameDuplicate
  | lookAround
  | flags
  | repetitionMissing
  | repetitionUnclosed
  | repetitionCount
  | classUnclosed
  | classRange
  | classItem
  | escapeUnfinished
  | escapeUnknown
  | backreference
  | codePoint
  | nestedTooDeeply
  | tooLarge
  deriving DecidableEq, Repr

namespace Pattern

/-- The flags that decide how a pattern is read from a place on. -/
structure Flags where
  ignoreCase : Bool
  dotAll : Bool
  multiLine : Bool
  swapGreed : Bool
  extended : Bool
  deriving DecidableEq, Repr

/-- The flags at the start of a pattern. -/
def Flags.initial (ignoreCase : Bool) : Flags := ⟨ignoreCase, false, false, false, false⟩

/-- Sets the flag with the given letter.  The flag `u`, by which sets hold characters and not bytes,
is always set and cannot be taken back, and the flag `R` of line ends in two characters is left
out. -/
def Flags.set? (f : Flags) (letter : Char) (value : Bool) : Option Flags :=
  match letter with
  | 'i' => some { f with ignoreCase := value }
  | 's' => some { f with dotAll := value }
  | 'm' => some { f with multiLine := value }
  | 'U' => some { f with swapGreed := value }
  | 'x' => some { f with extended := value }
  | 'u' => if value then some f else none
  | _ => none

/-- Reads the letters of flags up to a colon or a closing parenthesis.  `seen` holds the letters
and the minus read so far; none of them may come twice. -/
def readFlags (f : Flags) (seen : List Char) : List Char → Except PatternError (Flags × List Char)
  | [] => .error .groupUnclosed
  | c :: cs =>
    if c = ':' ∨ c = ')' then
      if seen.head? = some '-' then .error .flags else .ok (f, c :: cs)
    else if c ∈ seen then .error .flags
    else if c = '-' then readFlags f (c :: seen) cs
    else
      match f.set? c (!seen.contains '-') with
      | some f => readFlags f (c :: seen) cs
      | none => .error .flags

/-! ### Blanks of the extended notation -/

/-- In the extended notation, the text without the blanks and comments at its front. -/
def skipBlanks (inComment : Bool) : List Char → List Char
  | [] => []
  | c :: cs =>
    if inComment then skipBlanks (c ≠ '\n') cs
    else if Text.isBlank c then skipBlanks false cs
    else if c = '#' then skipBlanks true cs
    else c :: cs

theorem length_skipBlanks_le (inComment : Bool) (cs : List Char) :
  (skipBlanks inComment cs).length ≤ cs.length
  := by
  induction cs generalizing inComment with
  | nil => simp [skipBlanks]
  | cons c cs ih =>
    have := ih (c ≠ '\n')
    have := ih false
    have := ih true
    unfold skipBlanks
    simp only [List.length_cons]
    split
    · omega
    · split
      · omega
      · split
        · omega
        · simp

namespace Flags

/-- The text without the blanks at its front that the flags tell to skip. -/
def skip (f : Flags) (cs : List Char) : List Char :=
  if f.extended then skipBlanks false cs else cs

theorem length_skip_le (f : Flags) (cs : List Char) :
  (f.skip cs).length ≤ cs.length
  := by
  unfold skip
  split
  · exact length_skipBlanks_le false cs
  · exact Nat.le_refl _

/-- The first character that counts.  Of a comment only the mark at its front and the blanks behind
the mark are passed over. -/
def peek? (f : Flags) (cs : List Char) : Option Char :=
  if f.extended then
    match cs.dropWhile Text.isBlank with
    | '#' :: cs => (cs.dropWhile Text.isBlank).head?
    | cs => cs.head?
  else cs.head?

/-- The characters from the front on that satisfy a test, with the blanks between them skipped, and
the rest. -/
def takeWhile (f : Flags) (test : Char → Bool) : List Char → List Char × List Char
  | [] => ([], [])
  | c :: cs =>
    if test c then
      let (taken, rest) := takeWhile f test (f.skip cs)
      (c :: taken, rest)
    else ([], c :: cs)
  termination_by cs => cs.length
  decreasing_by exact Nat.lt_succ_of_le (f.length_skip_le cs)

/-- The first `n` characters that are not skipped, if there are as many, and the rest. -/
def take? (f : Flags) : Nat → List Char → Option (List Char × List Char)
  | 0, cs => some ([], cs)
  | n + 1, cs =>
    match f.skip cs with
    | [] => none
    | c :: cs => (take? f n cs).map fun (taken, rest) => (c :: taken, rest)

end Flags

end Pattern

end Descent
