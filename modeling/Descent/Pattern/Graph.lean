import Descent.Matcher
import Descent.Pattern.Basic

/-!
# Searching with a graph of places

A pattern is laid out as a graph of places: one that reads a character, one that asserts something
about the text, one that goes on at either of two places, and one that accepts.  A search keeps the
places it can be at in order of preference and visits none of them twice at the same character.  A
place already visited with more preference is dropped, which ends repetitions of the empty match
and decides which of them counts.
-/

namespace Descent

namespace Pattern

/-- A place of a graph; places are numbered. -/
inductive Place where
  | accept
  | read (s : CharSet) (next : Nat)
  | assert (l : Look) (next : Nat)
  /-- Goes on at the first place, or else at the second. -/
  | split (first second : Nat)
  deriving DecidableEq, Repr

/-- Whether a place accepts. -/
def Place.accepts : Place → Bool
  | .accept => true
  | _ => false

/-- The place after a place that reads the given character. -/
def Place.after? (c : Char) : Place → Option Nat
  | .read s next => if s.mem c then some next else none
  | _ => none

/-- A graph of places and the place where a search starts. -/
structure Graph where
  places : Array Place
  start : Nat
  /-- Whether a search can only succeed from the start of the text. -/
  anchored : Bool
  deriving DecidableEq, Repr, Inhabited

namespace Graph

/-! ### Layout -/

/-- Adds a layout to a graph: given the place to go on at, the place where it starts. -/
abbrev Layout := Nat → StateM (Array Place) Nat

/-- Adds a place. -/
def add (p : Place) : StateM (Array Place) Nat := fun places => (places.size, places.push p)

/-- A choice between entering a repetition and leaving it. -/
def enterOrLeave (greedy : Bool) (enter leave : Nat) : Place :=
  if greedy then .split enter leave else .split leave enter

/-- The layout repeated `n` times. -/
def exactly (layout : Layout) : Nat → Layout
  | 0, next, places => (next, places)
  | n + 1, next, places =>
    let (next, places) := layout next places
    exactly layout n next places

/-- The layout repeated once or more often. -/
def plus (layout : Layout) (greedy : Bool) (next : Nat) : StateM (Array Place) Nat := do
  let loop ← add .accept
  let enter ← layout loop
  modify (·.set! loop (enterOrLeave greedy enter next))
  pure enter

/-- The layout repeated any number of times, when each time reads a character. -/
def star (layout : Layout) (greedy : Bool) (next : Nat) : StateM (Array Place) Nat := do
  let loop ← add .accept
  let enter ← layout loop
  modify (·.set! loop (enterOrLeave greedy enter next))
  pure loop

/-- The layout once or not at all. -/
def optional (layout : Layout) (greedy : Bool) (next : Nat) : StateM (Array Place) Nat := do
  let enter ← layout next
  add (enterOrLeave greedy enter next)

/-- The layout at most `n` times, each time with the choice to leave. -/
def atMost (layout : Layout) (greedy : Bool) (leave : Nat) (n : Nat) :
    StateM (Array Place) Nat :=
  exactly (fun next => do add (enterOrLeave greedy (← layout next) leave)) n leave

/-- The layout of a pattern.  A repetition whose body may match nothing is laid out as one that is
entered at least once, behind a choice not to enter it. -/
def layout : Pattern → Layout
  | .empty, next => pure next
  | .set s, next => add (.read s next)
  | .look l, next => add (.assert l next)
  | .seq p q, next => do layout p (← layout q next)
  | .alt p q, next => do
    let first ← layout p next
    let second ← layout q next
    add (.split first second)
  | .rep p 0 none greedy, next =>
    if p.consumes then star (layout p) greedy next
    else optional (plus (layout p) greedy) greedy next
  | .rep p (n + 1) none greedy, next => do exactly (layout p) n (← plus (layout p) greedy next)
  | .rep p least (some most) greedy, next => do
    exactly (layout p) least (← atMost (layout p) greedy next (most - least))
  | .group _ p, next => layout p next

/-- The graph of a pattern. -/
def ofPattern (p : Pattern) : Graph :=
  let (start, places) := (layout p 0).run #[.accept]
  ⟨places, start, p.begins .textStart⟩

/-! ### Search -/

/-- Marking a place that is not marked leaves fewer places that are not. -/
theorem count_mark_lt {fresh : Array Bool} {i : Nat} (hi : i < fresh.size) (h : fresh[i] = true) :
  (fresh.set i false).count true < fresh.count true
  := by
  have hpos : 0 < fresh.count true := Array.count_pos_iff.mpr (h ▸ Array.getElem_mem hi)
  rw [Array.count_set]
  simp only [h, beq_self_eq_true, ↓reduceIte, show (false == true) = false from rfl]
  simp only [Bool.false_eq_true, ↓reduceIte]
  omega

/-- The places that read or accept among those reachable from `stack` without reading, in order of
preference, behind those in `found`, which has the last first.  Only places marked in `fresh` are
visited, each once. -/
def reach (g : Graph) (before after : Option Char) (stack : List Nat) (fresh : Array Bool)
    (found : List Place) : List Place :=
  match stack with
  | [] => found.reverse
  | i :: stack =>
    if hi : i < fresh.size then
      if h : fresh[i] = true then
        let fresh := fresh.set i false
        match g.places[i]? with
        | some (.split first second) => reach g before after (first :: second :: stack) fresh found
        | some (.assert l next) =>
          if l.holds before after then reach g before after (next :: stack) fresh found
          else reach g before after stack fresh found
        | some p => reach g before after stack fresh (p :: found)
        | none => reach g before after stack fresh found
      else reach g before after stack fresh found
    else reach g before after stack fresh found
  termination_by 2 * fresh.count true + stack.length
  decreasing_by
    all_goals
      first
      | have := count_mark_lt hi h
        simp only [List.length_cons]
        omega
      | exact Nat.lt_succ_self _

/-- The end of the preferred match, after `position` characters and with the given places left. -/
def settle (places : List Place) (position : Nat) (best : Option Nat) : Option Nat :=
  if places.any Place.accepts then some position else best

theorem settle_le {places : List Place} {position : Nat} {best : Option Nat}
    (h : ∀ m, best = some m → m ≤ position) (m : Nat) (hm : settle places position best = some m) :
  m ≤ position
  := by
  unfold settle at hm
  split at hm
  · simp_all
  · exact h m hm

/-- The places a search starts from: those left, and the start of the graph behind them while there
is no match and one may begin here. -/
def roots (g : Graph) (position : Nat) (left : List Nat) (best : Option Nat) : List Nat :=
  if best.isNone && (position == 0 || !g.anchored) then left ++ [g.start] else left

/-- Searches on after `position` characters, from the places in `left`.  A place that accepts
drops those after it; `best` is the end of the match that is preferred so far. -/
def searchFrom (g : Graph) (before : Option Char) (position : Nat) (left : List Nat)
    (best : Option Nat) (cs : List Char) : Option Nat :=
  let places := reach g before cs.head? (g.roots position left best)
    (Array.replicate g.places.size true) []
  let best := settle places position best
  match cs with
  | [] => best
  | c :: cs =>
    let left := (places.takeWhile (!·.accepts)).filterMap (Place.after? c)
    if left.isEmpty && (best.isSome || g.anchored) then best
    else searchFrom g (some c) (position + 1) left best cs

/-- The end of the preferred match in a text. -/
def search (g : Graph) (cs : List Char) : Option Nat := searchFrom g none 0 [] none cs

theorem searchFrom_le (g : Graph) (cs : List Char) :
    ∀ {before : Option Char} {position : Nat} {left : List Nat} {best : Option Nat} {n : Nat},
      (∀ m, best = some m → m ≤ position) → searchFrom g before position left best cs = some n →
  n ≤ position + cs.length
  := by
  induction cs with
  | nil =>
    intro before position left best n hbest h
    simp only [searchFrom] at h
    exact settle_le hbest n h
  | cons c cs ih =>
    intro before position left best n hbest h
    simp only [searchFrom] at h
    split at h
    · have := settle_le hbest n h
      omega
    · have := ih (fun m hm => Nat.le_succ_of_le (settle_le hbest m hm)) h
      simp only [List.length_cons]
      omega

/-- A search ends within the text. -/
theorem search_le (g : Graph) {cs : List Char} {n : Nat} (h : g.search cs = some n) :
  n ≤ cs.length
  := by
  have := searchFrom_le g cs (by simp) h
  omega

/-- The matcher of a graph. -/
def matcher (g : Graph) : Matcher := ⟨g.search, g.search_le⟩

instance : Coe Graph Matcher := ⟨matcher⟩

end Graph

end Pattern

end Descent
