/-
  EventFlow.Graph.Index — the edges of a graph by the positions of their nodes.

  A node is known by its position in the list of nodes; an id means the first node that
  has it. An edge counts as a link only if both its ends are known.
-/

import EventFlow.Graph.Basic
import EventFlow.Workflow.Event

namespace EventFlow

/-- An edge whose ends are known. -/
structure Link where
  /-- The position of the edge in the list of edges. -/
  position : Nat
  edge : Edge
  source : Nat
  target : Nat
  deriving DecidableEq, Inhabited

def Link.event (l : Link) : Event := Event.ofEdge l.edge.id

namespace Graph

def position? (g : Graph) (id : String) : Option Nat := g.nodes.findIdx? (·.id = id)

def link? (g : Graph) (e : Edge) (i : Nat) : Option Link := do
  return ⟨i, e, ← g.position? e.source, ← g.position? e.target⟩

def links (g : Graph) : List Link := g.edges.zipIdx.filterMap fun (e, i) => g.link? e i

/-- The first node of a kind that no earlier node hides. -/
def firstOfKind? (g : Graph) (kind : NodeKind) : Option Nat :=
  (g.nodes.zipIdx.find? fun (n, i) => n.kind = kind && g.position? n.id = some i).map (·.2)

end Graph

/-- A graph with its links, found once. -/
structure GraphIndex where
  graph : Graph
  links : List Link
  deriving Inhabited

def Graph.index (g : Graph) : GraphIndex := ⟨g, g.links⟩

namespace GraphIndex

def node? (ix : GraphIndex) (pos : Nat) : Option Node := ix.graph.nodes[pos]?

def kind? (ix : GraphIndex) (pos : Nat) : Option NodeKind := (ix.node? pos).map Node.kind

def isTool (ix : GraphIndex) (pos : Nat) : Bool := ix.kind? pos = some .agentTool

/-- The links that leave a node, in the order of the edges. -/
def outgoing (ix : GraphIndex) (pos : Nat) : List Link := ix.links.filter (·.source = pos)

/-- The links that enter a node, in the order of the edges. -/
def incoming (ix : GraphIndex) (pos : Nat) : List Link := ix.links.filter (·.target = pos)

end GraphIndex
end EventFlow
