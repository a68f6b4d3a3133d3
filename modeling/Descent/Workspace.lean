import Descent.Compilation

/-!
# Workspaces

A workspace shows the latest compilation of a description.  Every request to compile draws a ticket;
compilations may finish in any order, and one that finishes after a later request has been shown is
not shown any more.
-/

namespace Descent

/-- A compilation and the ticket of its request. -/
structure Workspace.Published where
  ticket : Nat
  compilation : Compilation

/-- A workspace: how many tickets were drawn, and what is shown. -/
structure Workspace where
  options : Options
  tickets : Nat
  published : Option Workspace.Published

namespace Workspace

/-- The workspace that shows nothing. -/
def empty (o : Options) : Workspace := ⟨o, 0, none⟩

/-- The compilation that is shown. -/
def current? (w : Workspace) : Option Compilation := w.published.map (·.compilation)

/-- Draws the next ticket. -/
def request (w : Workspace) : Nat × Workspace :=
  (w.tickets + 1, { w with tickets := w.tickets + 1 })

/-- Shows a compilation, unless one with a later ticket is shown. -/
def publish (w : Workspace) (ticket : Nat) (c : Compilation) : Workspace :=
  match w.published with
  | none => { w with published := some ⟨ticket, c⟩ }
  | some p => if ticket < p.ticket then w else { w with published := some ⟨ticket, c⟩ }

/-- Compiles a description and shows the compilation. -/
def compile [Engine] (w : Workspace) (fs : FileSystem) (text file : String) :
    Compilation × Workspace :=
  let (ticket, w) := w.request
  let c := Compilation.ofText fs w.options text file
  (c, w.publish ticket c)

/-- Draws tickets for several requests. -/
def requestAll (w : Workspace) : Nat → List Nat × Workspace
  | 0 => ([], w)
  | n + 1 =>
    let (ticket, w) := w.request
    let (tickets, w) := w.requestAll n
    (ticket :: tickets, w)

/-- Compiles several descriptions that are all requested before the first of them is shown. -/
def compileAll [Engine] (w : Workspace) (fs : FileSystem) (jobs : List (String × String)) :
    List Compilation × Workspace :=
  let (tickets, w) := w.requestAll jobs.length
  let compilations := jobs.map fun (text, file) => Compilation.ofText fs w.options text file
  (compilations, (tickets.zip compilations).foldl (fun w (ticket, c) => w.publish ticket c) w)

end Workspace

end Descent
