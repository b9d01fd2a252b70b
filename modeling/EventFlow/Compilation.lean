/-
  EventFlow.Compilation — from a graph to a workflow.

  The nodes that can be reached from the first start become steps, as far as something
  sets them off. The tools that an agent is joined to become part of the agent.
-/

import EventFlow.Compilation.Support
import EventFlow.Workflow.Order

namespace EventFlow

namespace GraphIndex

/-- The tool of a node; settings kept for the node come before its own. -/
def toolSpec (configs : ToolConfigs) (id : String) (own : AgentToolConfig) : ToolSpec :=
  let kept := (configs.get? id).getD {}
  { id := stepId id
    name := (kept.name <|> own.label <|> own.name).getD ""
    description := (kept.description <|> own.description).getD ""
    toolType := kept.toolType <|> own.toolType
    selectedIndex := kept.selectedIndex <|> own.selectedIndex
    config := own.config }

/-- The tools that a node is joined to, in the order of the first edges to them. -/
def tools (ix : GraphIndex) (configs : ToolConfigs) (pos : Nat) : List ToolSpec :=
  (Reach.takeFresh (ix.targets pos) (List.range ix.graph.nodes.length)).1.filterMap fun t =>
    match ix.node? t with
    | some ⟨id, .agentTool own⟩ => some (toolSpec configs id own)
    | _ => none

end GraphIndex

namespace Draft

/-- The node's settings; an agent's tools are those it is joined to. -/
def config (ix : GraphIndex) (configs : ToolConfigs) (d : Draft) : NodeConfig :=
  match d.node.config with
  | .promptAgent c => .promptAgent { c with tools := ix.tools configs d.position }
  | c => c

def toStep (ix : GraphIndex) (configs : ToolConfigs) (drafts : List Draft) (d : Draft) : Step :=
  ⟨stepId d.node.id, d.config ix configs, d.accepts ix drafts, d.emits⟩

end Draft

/-- The drafts that become steps, in the order of the search. -/
def GraphIndex.drafts (ix : GraphIndex) (order : SearchOrder) (start : Nat) : List Draft :=
  Draft.supported ix ((ix.reach order start).filterMap ix.draft?)

namespace Graph

def compile (g : Graph) (settings : Settings) (configs : ToolConfigs := .empty)
    (order : SearchOrder := .breadthFirst) : Result Workflow :=
  match g.firstOfKind? .start with
  | none => .error .noStart
  | some start =>
    let ix := g.index
    let drafts := ix.drafts order start
    .ok ⟨Step.ordered (drafts.map fun d => d.toStep ix configs drafts), settings⟩

end Graph
end EventFlow
