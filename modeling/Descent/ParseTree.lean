import Descent.Token

/-!
# Parse trees

A parse tree keeps its nodes in the order in which they were created and refers to them by their
index.  Errors are gathered beside the nodes.  A node may be widened to cover what lies below it.
-/

namespace Descent

/-- A node of a parse tree, by its index. -/
structure NodeId where
  index : Nat
  deriving DecidableEq, Repr

/-- A node: its token, the text to show for it, and its place in the tree. -/
structure Node (κ : Type) where
  token : Token κ
  text : String
  parent : Option NodeId
  children : List NodeId
  deriving DecidableEq, Repr

/-- A parse tree and the errors found while it was built. -/
structure ParseTree (κ : Type) where
  nodes : Array (Node κ)
  errors : List Diagnostic
  deriving DecidableEq, Repr

namespace ParseTree

variable {κ : Type}

/-- The root. -/
def root : NodeId := ⟨0⟩

/-- The tree that is a root only. -/
def single [TokenKind κ] : ParseTree κ :=
  let token := { kind := TokenKind.root, span := .nowhere, text := "", skipped := [] }
  ⟨#[⟨token, "ParseTree", none, []⟩], []⟩

/-- The number of nodes. -/
def size (t : ParseTree κ) : Nat := t.nodes.size

/-- Whether the tree is a root only. -/
def isEmpty (t : ParseTree κ) : Bool := t.size == 1

/-- A node of the tree. -/
def node? (t : ParseTree κ) (id : NodeId) : Option (Node κ) := t.nodes[id.index]?

/-- The nodes right below a node. -/
def children (t : ParseTree κ) (id : NodeId) : List NodeId :=
  match t.node? id with
  | some n => n.children
  | none => []

/-- Adds a node below another one. -/
def create (t : ParseTree κ) (parent : NodeId) (token : Token κ) (text : String) :
    NodeId × ParseTree κ :=
  let id : NodeId := ⟨t.nodes.size⟩
  let nodes := t.nodes.modify parent.index fun n => { n with children := n.children ++ [id] }
  (id, { t with nodes := nodes.push ⟨token, text, some parent, []⟩ })

/-- Widens a node to cover a span. -/
def widenTo (t : ParseTree κ) (target : NodeId) (span : Span) : ParseTree κ :=
  { t with nodes := t.nodes.modify target.index fun n =>
      { n with token := { n.token with span := n.token.span.widen span } } }

/-- Widens a node to cover another one. -/
def widen (t : ParseTree κ) (target source : NodeId) : ParseTree κ :=
  match t.node? source with
  | some n => t.widenTo target n.token.span
  | none => t

/-- Adds a node for a token and widens the node above it. -/
def addToken (name : κ → String) (t : ParseTree κ) (parent : NodeId) (token : Token κ) :
    NodeId × ParseTree κ :=
  let (id, t) := t.create parent token (token.label name)
  (id, t.widenTo parent token.span)

/-- Adds an error. -/
def addError (t : ParseTree κ) (d : Diagnostic) : ParseTree κ :=
  { t with errors := t.errors ++ [d] }

/-- The child of a node that is the `index`-th of a kind. -/
def nthChild? [DecidableEq κ] (t : ParseTree κ) (id : NodeId) (kind : κ) (index : Nat) :
    Option NodeId :=
  ((t.children id).filter fun c => (t.node? c).any (·.token.kind = kind))[index]?

/-! ### Traversal -/

/-- The nodes from one on downwards with their depth, going down less than `height` levels. -/
def walkFrom (t : ParseTree κ) : (height depth : Nat) → NodeId → List (Nat × NodeId)
  | 0, _, _ => []
  | height + 1, depth, id =>
    (depth, id) :: (t.children id).flatMap (walkFrom t height (depth + 1))

/-- All nodes with their depth, each before those below it.  A tree is not higher than it has
nodes. -/
def walk (t : ParseTree κ) : List (Nat × NodeId) := t.walkFrom t.size 0 root

/-- The printed form of a tree: a line a node, two blanks for each level. -/
def text (t : ParseTree κ) : String :=
  String.join <| t.walk.map fun (depth, id) =>
    String.ofList (List.replicate (2 * depth) ' ') ++ ((t.node? id).map (·.text)).getD "" ++ "\n"

end ParseTree

end Descent
