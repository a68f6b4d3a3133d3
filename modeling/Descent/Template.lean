import Descent.Diagnostic

/-!
# Templates

A template is text with markers `<%Name%>` where emitted code goes.  It is read once into text and
slots, so that emitted code is never searched for markers.  A marker whose name is unknown is
reported and stays as text.
-/

namespace Descent

/-- The places in templates that receive emitted code. -/
inductive Slot where
  | namespace
  | parserInterface
  | treeInterface
  | routines
  | tokenType
  | patterns
  | skipList
  | fileAndLine
  | evalSymbols
  | evalMethods
  deriving DecidableEq, Repr

namespace Slot

/-- All slots. -/
def all : List Slot :=
  [.namespace, .parserInterface, .treeInterface, .routines, .tokenType, .patterns, .skipList,
    .fileAndLine, .evalSymbols, .evalMethods]

/-- The name of a slot in its marker. -/
def name : Slot → String
  | .namespace => "Namespace"
  | parserInterface => "IParser"
  | treeInterface => "IParseTree"
  | routines => "ParseNonTerminals"
  | tokenType => "TokenType"
  | patterns => "RegExps"
  | skipList => "SkipList"
  | fileAndLine => "FileAndLine"
  | evalSymbols => "EvalSymbols"
  | evalMethods => "VirtualEvalMethods"

/-- The slot with a given name. -/
def ofName? (s : String) : Option Slot := all.find? (·.name = s)

end Slot

namespace Template

/-- A marker with the given content. -/
def marker (content : String) : String := "<%" ++ content ++ "%>"

end Template

/-- The marker of a slot. -/
def Slot.marker (s : Slot) : String := Template.marker s.name

/-- A piece of a template. -/
inductive Segment where
  | text (s : String)
  | slot (s : Slot)
  deriving DecidableEq, Repr

/-- A template that has been read. -/
structure Template where
  name : String
  segments : List Segment
  deriving DecidableEq, Repr

namespace Template

/-! ### Cutting at markers -/

/-- The text before a percent mark that the given characters surround, and the text behind them. -/
def breakAt (first second : Char) : List Char → Option (List Char × List Char)
  | [] => none
  | c :: cs =>
    if c = first ∧ cs.head? = some second then some ([], cs.tail)
    else (breakAt first second cs).map fun (before, after) => (c :: before, after)

theorem length_of_breakAt {first second : Char} {cs before after : List Char}
    (h : breakAt first second cs = some (before, after)) :
  after.length < cs.length
  := by
  induction cs generalizing before after with
  | nil => simp [breakAt] at h
  | cons c cs ih =>
    unfold breakAt at h
    split at h
    · simp only [Option.some.injEq, Prod.mk.injEq] at h
      rw [← h.2, List.length_tail, List.length_cons]
      omega
    · obtain ⟨⟨b, a⟩, hb, he⟩ := Option.map_eq_some_iff.1 h
      simp only [Prod.mk.injEq] at he
      have := ih hb
      rw [← he.2, List.length_cons]
      omega

/-- A piece of a template before the names of markers are looked up. -/
inductive Piece where
  | text (cs : List Char)
  | marker (content : List Char)
  deriving DecidableEq, Repr

/-- The pieces of a template.  A marker goes from where it is opened to the next place that closes
one; what is never closed is text. -/
def pieces (cs : List Char) : List Piece :=
  match _h : breakAt '<' '%' cs with
  | none => [.text cs]
  | some (before, after) =>
    match _k : breakAt '%' '>' after with
    | none => [.text cs]
    | some (content, rest) => .text before :: .marker content :: pieces rest
  termination_by cs.length
  decreasing_by
    have := length_of_breakAt _h
    have := length_of_breakAt _k
    omega

/-! ### Reading -/

/-- Puts text in front of segments, joined to the text they start with. -/
def addText (s : String) : List Segment → List Segment
  | .text t :: rest => .text (s ++ t) :: rest
  | segments => if s.isEmpty then segments else .text s :: segments

/-- The segments of pieces. -/
def segmentsOf : List Piece → List Segment
  | [] => []
  | .text cs :: ps => addText (String.ofList cs) (segmentsOf ps)
  | .marker content :: ps =>
    let content := String.ofList content
    match Slot.ofName? content with
    | some s => .slot s :: segmentsOf ps
    | none => addText (Template.marker content) (segmentsOf ps)

/-- What is wrong with a piece of a template. -/
def Piece.problem? (template : String) : Piece → Option Problem
  | text _ => none
  | marker content =>
    let content := String.ofList content
    if (Slot.ofName? content).isSome then none else some (.unknownMarker content template)

/-- Reads a template. -/
def read (name text : String) : Template × List Diagnostic :=
  let ps := pieces text.toList
  (⟨name, segmentsOf ps⟩, ps.filterMap fun p => (p.problem? name).map (·.unlocated))

/-- Whether a template has a slot. -/
def has (t : Template) (s : Slot) : Bool := .slot s ∈ t.segments

/-- The text of a segment with the slots filled. -/
def Segment.fill (value : Slot → String) : Segment → String
  | .text s => s
  | .slot s => value s

/-- The text of a template with the slots filled. -/
def render (t : Template) (value : Slot → String) : String :=
  String.join (t.segments.map (Segment.fill value))

end Template

end Descent
