/-
  EventFlow.Graph.Codec — graphs as JSON.

  The settings of a node are a free-form value on its own: they are read in full before
  they are understood, and written with their keys sorted and their temperature widened.
-/

import EventFlow.Graph.Basic

namespace EventFlow

namespace NodeConfig

def textSlot {σ : Type} (name : String) (put : Option String → σ → σ)
    (aliases : List String := []) : Slot σ :=
  .of name .defaulted (Reader.option Reader.text) put aliases

def labelShape (title : String) : Shape (Option String) :=
  ⟨title, [textSlot "label" fun a _ => a]⟩

def userInputShape : Shape UserInputConfig where
  title := "UserInputConfig"
  slots :=
    [ textSlot "label" fun a s => { s with label := a },
      textSlot "prompt" fun a s => { s with prompt := a },
      textSlot "placeholder" fun a s => { s with placeholder := a } ]

def promptLlmShape : Shape PromptLlmConfig where
  title := "PromptLlmConfig"
  slots :=
    [ textSlot "label" fun a s => { s with label := a },
      textSlot "llm" fun a s => { s with llm := a },
      textSlot "model" fun a s => { s with model := a },
      .of "temperature" .defaulted (Reader.option Reader.single)
        fun a s => { s with temperature := a },
      textSlot "promptPrefix" fun a s => { s with promptStart := a },
      textSlot "systemPrompt" fun a s => { s with systemPrompt := a } ]

def promptAgentShape : Shape PromptAgentConfig where
  title := "PromptAgentConfig"
  slots :=
    [ textSlot "label" fun a s => { s with label := a },
      textSlot "agentType" fun a s => { s with agentType := a },
      textSlot "systemPrompt" (fun a s => { s with systemPrompt := a }) ["prompt"],
      textSlot "llm" fun a s => { s with llm := a },
      textSlot "model" fun a s => { s with model := a },
      .of "temperature" .defaulted (Reader.option Reader.single)
        fun a s => { s with temperature := a },
      .of "tools" .defaulted (Reader.list ToolSpec.read) fun a s => { s with tools := a } ]

def agentToolShape : Shape AgentToolConfig where
  title := "AgentToolConfig"
  slots :=
    [ textSlot "label" fun a s => { s with label := a },
      textSlot "toolType" fun a s => { s with toolType := a },
      textSlot "config" fun a s => { s with config := a },
      textSlot "name" fun a s => { s with name := a },
      textSlot "description" fun a s => { s with description := a },
      textSlot "selectedIndex" fun a s => { s with selectedIndex := a } ]

/-- A label and one more text. -/
def pairShape (title second : String) : Shape (Option String × Option String) where
  title := title
  slots := [textSlot "label" fun a s => (a, s.2), textSlot second fun a s => (s.1, a)]

/-- Reads the settings of a node of a kind. -/
def read : NodeKind → Reader NodeConfig
  | .start => fun v => ((labelShape "BasicConfig").read none v).map start
  | .stop => fun v => ((labelShape "BasicConfig").read none v).map stop
  | .userInput => fun v => (userInputShape.read {} v).map userInput
  | .promptLlm => fun v => (promptLlmShape.read {} v).map promptLlm
  | .promptAgent => fun v => (promptAgentShape.read {} v).map promptAgent
  | .agentTool => fun v => (agentToolShape.read {} v).map agentTool
  | .splitter => fun v =>
    ((pairShape "SplitterConfig" "splitType").read (none, none) v).map fun (a, b) => splitter a b
  | .collector => fun v =>
    ((pairShape "CollectorConfig" "mergeType").read (none, none) v).map
      fun (a, b) => collector a b
  | .decision => fun v =>
    ((pairShape "DecisionConfig" "question").read (none, none) v).map fun (a, b) => decision a b

/-- The settings from a value tree; null stands for an object without entries. -/
def ofJson (kind : NodeKind) (data : Json) : Except JsonFault NodeConfig :=
  Reader.ofJson (read kind) (if data.isNull then .obj [] else data)

def fields : NodeConfig → List (String × Json)
  | start label | stop label => Json.entry? "label" .str label
  | userInput c =>
    Json.entry? "label" .str c.label ++ Json.entry? "prompt" .str c.prompt ++
      Json.entry? "placeholder" .str c.placeholder
  | promptLlm c =>
    Json.entry? "label" .str c.label ++ Json.entry? "llm" .str c.llm ++
      Json.entry? "model" .str c.model ++ Json.entry? "temperature" .ofWidened c.temperature ++
      Json.entry? "promptPrefix" .str c.promptStart ++
      Json.entry? "systemPrompt" .str c.systemPrompt
  | promptAgent c =>
    Json.entry? "label" .str c.label ++ Json.entry? "agentType" .str c.agentType ++
      Json.entry? "systemPrompt" .str c.systemPrompt ++ Json.entry? "llm" .str c.llm ++
      Json.entry? "model" .str c.model ++ Json.entry? "temperature" .ofWidened c.temperature ++
      (if c.tools.isEmpty then [] else [("tools", .arr (c.tools.map ToolSpec.toJson))])
  | agentTool c =>
    Json.entry? "label" .str c.label ++ Json.entry? "toolType" .str c.toolType ++
      Json.entry? "config" .str c.config ++ Json.entry? "name" .str c.name ++
      Json.entry? "description" .str c.description ++
      Json.entry? "selectedIndex" .str c.selectedIndex
  | splitter label splitType =>
    Json.entry? "label" .str label ++ Json.entry? "splitType" .str splitType
  | collector label mergeType =>
    Json.entry? "label" .str label ++ Json.entry? "mergeType" .str mergeType
  | decision label question =>
    Json.entry? "label" .str label ++ Json.entry? "question" .str question

def toJson (c : NodeConfig) : Json := (Json.obj c.fields).sorted

end NodeConfig

/-- A fault in the settings of a node, told with the node's id. -/
def inNode {α : Type} (id : String) (settings : Except JsonFault α) : Except JsonFault α :=
  settings.mapError fun fault => .inData (.inNode id fault.message)

namespace Node

/-- A node before its settings are understood. -/
structure Raw where
  id : String
  kind : NodeKind
  data : Json

def shape : Shape Raw where
  title := "RawNode"
  slots :=
    [ .of "id" .required Reader.text fun a s => { s with id := a },
      .of "type" .required NodeKind.read fun a s => { s with kind := a },
      .of "data" .defaulted Reader.json fun a s => { s with data := a } ]

def read : Reader Node := fun v => do
  let raw ← shape.read ⟨"", .start, .null⟩ v
  let config ← inNode raw.id (NodeConfig.ofJson raw.kind raw.data)
  return ⟨raw.id, config⟩

def toJson (n : Node) : Json :=
  .obj [("id", .str n.id), ("type", n.kind.toJson), ("data", n.config.toJson)]

end Node

namespace Edge

def shape : Shape Edge where
  title := "Edge"
  slots :=
    [ .of "id" .required Reader.text fun a s => { s with id := a },
      .of "source" .required Reader.text fun a s => { s with source := a },
      .of "sourceHandle" .defaulted (Reader.option Reader.text)
        fun a s => { s with sourceHandle := a },
      .of "target" .required Reader.text fun a s => { s with target := a },
      .of "targetHandle" .defaulted (Reader.option Reader.text)
        fun a s => { s with targetHandle := a } ]

def read : Reader Edge := shape.read { id := "", source := "", target := "" }

def toJson (e : Edge) : Json :=
  .obj ([("id", .str e.id), ("source", .str e.source)] ++
    Json.entry? "sourceHandle" .str e.sourceHandle ++ [("target", .str e.target)] ++
    Json.entry? "targetHandle" .str e.targetHandle)

end Edge

namespace Graph

def shape : Shape Graph where
  title := "Graph"
  slots :=
    [ .of "nodes" .defaulted (Reader.list Node.read) fun a s => { s with nodes := a },
      .of "edges" .defaulted (Reader.list Edge.read) fun a s => { s with edges := a } ]

def read : Reader Graph := shape.read {}

def toJson (g : Graph) : Json :=
  .obj [("nodes", .arr (g.nodes.map Node.toJson)), ("edges", .arr (g.edges.map Edge.toJson))]

def ofJsonText (text : String) : Result Graph :=
  (Reader.ofText read text).mapError fun fault => .invalidGraph fault.message

end Graph
end EventFlow
