/-!
# Ranges of code points

A property of characters is given by the ranges of code points that have it.  The ranges of a list
come in order and leave gaps between them, and the operations of sets keep this form.  A `Run` is a
range that a map of code points shifts as a whole, possibly leaving out every other code point.
-/

namespace Descent.Text

/-- Closed ranges of code points, in increasing order. -/
abbrev Ranges := List (Nat × Nat)

namespace Ranges

/-- Whether a code point lies in one of the ranges.  Ranges beyond it are not looked at. -/
def covers : Ranges → Nat → Bool
  | [], _ => false
  | (low, high) :: rest, c => if c < low then false else c ≤ high || covers rest c

/-! ### Operations -/

/-- The greatest code point. -/
def last : Nat := 0x10FFFF

/-- Adds a range.  Ranges that overlap it or touch it become one with it. -/
def insert (r : Nat × Nat) : Ranges → Ranges
  | [] => [r]
  | q :: rest =>
    if r.2 + 1 < q.1 then r :: q :: rest
    else if q.2 + 1 < r.1 then q :: insert r rest
    else insert (min r.1 q.1, max r.2 q.2) rest

/-- The code points in either of two lists. -/
def union : Ranges → Ranges → Ranges
  | [], ss => ss
  | rs, ss => ss.foldl (fun rs s => insert s rs) rs

/-- The code points from `next` on that are in none of the ranges. -/
def complFrom (next : Nat) : Ranges → Ranges
  | [] => if next ≤ last then [(next, last)] else []
  | (low, high) :: rest =>
    if next < low then (next, low - 1) :: complFrom (high + 1) rest else complFrom (high + 1) rest

/-- The code points in none of the ranges. -/
def compl (rs : Ranges) : Ranges := complFrom 0 rs

/-- The code points in both of two lists. -/
def inter (rs ss : Ranges) : Ranges := compl (union (compl rs) (compl ss))

/-- The code points in the first of two lists but not in the second. -/
def diff (rs ss : Ranges) : Ranges := compl (union (compl rs) ss)

/-- The code points in just one of two lists. -/
def symmDiff (rs ss : Ranges) : Ranges := union (diff rs ss) (diff ss rs)

end Ranges

/-- The code points `first`, `first + step`, … up to `last`, sent to `image`, `image + step`, …. -/
structure Run where
  first : Nat
  last : Nat
  step : Nat
  image : Nat

namespace Run

/-- Whether a code point belongs to the run. -/
def covers (r : Run) (c : Nat) : Bool := r.first ≤ c && c ≤ r.last && (c - r.first) % r.step == 0

/-- The images of the code points of the run. -/
def images (r : Run) : List Nat :=
  (List.range ((r.last - r.first) / r.step + 1)).map fun k => r.image + k * r.step

/-- The image of a code point under the first run it belongs to. -/
def image? (rs : List Run) (c : Nat) : Option Nat :=
  (rs.find? (·.covers c)).map fun r => r.image + (c - r.first)

/-- The code points that some run sends to `d`. -/
def preimages (rs : List Run) (d : Nat) : List Nat :=
  rs.filterMap fun r =>
    let c := r.first + (d - r.image)
    if r.image ≤ d && r.covers c then some c else none

end Run

end Descent.Text
