/-
  EventFlow.Workflow.Tool — the tools attached to an agent, and settings kept for them.
-/

import EventFlow.Failure
import EventFlow.Graph.Kind

namespace EventFlow

/-- What the id of a compiled step starts with. -/
def stepIdStem : String := "node-"

def stepId (nodeId : String) : String := stepIdStem ++ nodeId

structure ToolSpec where
  id : String
  nodeType : String := NodeKind.agentTool.name
  name : String := ""
  description : String := ""
  toolType : Option String := none
  selectedIndex : Option String := none
  config : Option String := none
  deriving DecidableEq, Inhabited

namespace ToolSpec

def indexType : String := "llamacloud-index"

def isIndex (t : ToolSpec) : Bool := t.toolType = some indexType

/-- The id of the graph node that the tool was made from. -/
def bareId (t : ToolSpec) : String :=
  if Text.startsWith t.id stepIdStem then String.ofList (t.id.toList.drop stepIdStem.length)
  else t.id

def shape : Shape ToolSpec where
  title := "ToolSpec"
  slots :=
    [ .of "id" .required Reader.text fun a s => { s with id := a },
      .of "type" .defaulted Reader.text fun a s => { s with nodeType := a },
      .of "name" .defaulted Reader.text fun a s => { s with name := a },
      .of "description" .defaulted Reader.text fun a s => { s with description := a },
      .of "toolType" .defaulted (Reader.option Reader.text) fun a s => { s with toolType := a },
      .of "selectedIndex" .defaulted (Reader.option Reader.text)
        fun a s => { s with selectedIndex := a },
      .of "config" .defaulted (Reader.option Reader.text) fun a s => { s with config := a } ]

def read : Reader ToolSpec := shape.read { id := "" }

def toJson (t : ToolSpec) : Json :=
  .obj ([("id", .str t.id), ("type", .str t.nodeType), ("name", .str t.name),
    ("description", .str t.description)] ++ Json.entry? "toolType" .str t.toolType ++
    Json.entry? "selectedIndex" .str t.selectedIndex ++ Json.entry? "config" .str t.config)

end ToolSpec

/-- Settings kept for a tool node; each replaces the node's own. -/
structure ToolConfig where
  toolType : Option String := none
  selectedIndex : Option String := none
  name : Option String := none
  description : Option String := none
  deriving DecidableEq, Inhabited

namespace ToolConfig

def shape : Shape ToolConfig where
  title := "ToolConfig"
  slots :=
    [ .of "toolType" .defaulted (Reader.option Reader.text) fun a s => { s with toolType := a },
      .of "selectedIndex" .defaulted (Reader.option Reader.text)
        fun a s => { s with selectedIndex := a },
      .of "name" .defaulted (Reader.option Reader.text) fun a s => { s with name := a },
      .of "description" .defaulted (Reader.option Reader.text)
        fun a s => { s with description := a } ]

def read : Reader ToolConfig := shape.read {}

def toJson (t : ToolConfig) : Json :=
  .obj (Json.entry? "toolType" .str t.toolType ++
    Json.entry? "selectedIndex" .str t.selectedIndex ++ Json.entry? "name" .str t.name ++
    Json.entry? "description" .str t.description)

end ToolConfig

/-- The kept settings by the id of the tool node. -/
abbrev ToolConfigs := Dictionary ToolConfig

namespace ToolConfigs

def ofJsonText (text : String) : Result ToolConfigs :=
  (Reader.ofText (Reader.map ToolConfig.read) text).mapError fun fault =>
    .invalidConfig ("tool configs: " ++ fault.message)

end ToolConfigs
end EventFlow
