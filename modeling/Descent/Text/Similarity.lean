/-!
# Similar words

Two words are similar as far as many of their characters match at about the same place and in the
same order, and as far as they begin alike.  The measure is a fraction between zero and one; it is
kept exactly, as two natural numbers.
-/

namespace Descent.Text

/-- A fraction. -/
structure Score where
  numerator : Nat
  denominator : Nat
  deriving DecidableEq, Repr

/-- Whether a fraction is below another one. -/
def Score.lt (s t : Score) : Bool := s.numerator * t.denominator < t.numerator * s.denominator

namespace Similarity

/-- The places of a second word that the characters of a first one, from the place `i` on, match
with: for each the first place with the same character that is still free and at most `reach`
away. -/
def places (reach : Nat) : (i : Nat) → List Char → (free : List (Option Char)) → List Nat
  | _, [], _ => []
  | i, c :: cs, free =>
    let near := fun j => i ≤ j + reach && j ≤ i + reach && free[j]? == some (some c)
    match (List.range free.length).find? near with
    | some j => j :: places reach (i + 1) cs (free.set j none)
    | none => places reach (i + 1) cs free

/-- How many numbers of a list are smaller than the one before. -/
def descents (ns : List Nat) : Nat := (ns.zip ns.tail).countP fun (n, next) => next < n

/-- The length of the beginning that two words share. -/
def commonLength : List Char → List Char → Nat
  | a :: as, b :: bs => if a = b then commonLength as bs + 1 else 0
  | _, _ => 0

/-- How well the characters of two words match: the mean of three parts, which are the part of the
first word that matches, the part of the second one, and the part of the matches that are in
order. -/
def matching (a b : List Char) : Score :=
  let ps := places (max a.length b.length / 2 - 1) 0 a (b.map some)
  let m := ps.length
  if m = 0 then ⟨0, 1⟩
  else
    ⟨m * m * b.length + m * m * a.length + (m - descents ps) * a.length * b.length,
      3 * m * a.length * b.length⟩

end Similarity

open Similarity in
/-- How similar two words are: each character that they share at the beginning takes a tenth off
what the matching of the words lacks. -/
def similarity (a b : String) : Score :=
  let s := matching a.toList b.toList
  let shared := commonLength a.toList b.toList
  ⟨10 * s.numerator + shared * (s.denominator - s.numerator), 10 * s.denominator⟩

/-- The word that is the most similar to a given one, the first of several, if there is one with a
similarity above four fifths. -/
def closest? (word : String) (candidates : List String) : Option String :=
  let better := fun (best? : Option (Score × String)) candidate =>
    let s := similarity word candidate
    if !Score.lt ⟨4, 5⟩ s then best?
    else
      match best? with
      | none => some (s, candidate)
      | some (best, _) => if best.lt s then some (s, candidate) else best?
  (candidates.foldl better none).map (·.2)

end Descent.Text
