/-
  EventFlow.Graph.Basic — the graph that an author draws: nodes and directed edges.
-/

import EventFlow.Graph.Config

namespace EventFlow

structure Node where
  id : String
  config : NodeConfig
  deriving DecidableEq, Inhabited

def Node.kind (n : Node) : NodeKind := n.config.kind

structure Edge where
  id : String
  source : String
  /-- The output of the source that the edge leaves from, such as a decision's `true`. -/
  sourceHandle : Option String := none
  target : String
  targetHandle : Option String := none
  deriving DecidableEq, Inhabited

structure Graph where
  nodes : List Node := []
  edges : List Edge := []
  deriving DecidableEq, Inhabited

namespace Graph

/-- The first node with an id; it hides later ones. -/
def node? (g : Graph) (id : String) : Option Node := g.nodes.find? (·.id = id)

def startNode? (g : Graph) : Option Node := g.nodes.find? (·.kind = .start)

end Graph
end EventFlow
