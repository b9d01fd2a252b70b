/-
  EventFlow.Agent.Toolbox — the tools that an agent may call, by name.

  All of them search an index.
-/

import EventFlow.Agent.Registry
import EventFlow.Agent.SearchTool

namespace EventFlow

abbrev Toolbox := List SearchTool

namespace Toolbox

def register (tools : Toolbox) (tool : SearchTool) : Toolbox := Registry.register SearchTool.name tools tool

def get? (tools : Toolbox) (name : String) : Option SearchTool := Registry.get? SearchTool.name tools name

def names (tools : Toolbox) : List String := Registry.names SearchTool.name tools

def definitions (tools : Toolbox) : List ToolDefinition := Registry.definitions SearchTool.definition tools

def execute {σ : Type} (tools : Toolbox) (retrieve : RetrievalService σ) (name : String) :
    Service σ Json ToolResult := Registry.execute SearchTool.name (·.execute retrieve) tools name

/-- The tools of the attached indexes. -/
def ofSpecs (specs : List ToolSpec) : Toolbox := (specs.filterMap SearchTool.ofSpec?).foldl register []

end Toolbox
end EventFlow
