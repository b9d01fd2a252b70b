/-
  EventFlow.Conversation — what is said between a human, a model and the tools it calls.
-/

import EventFlow.Failure

namespace EventFlow

inductive Role where
  | system | user | assistant
  deriving DecidableEq, Inhabited

inductive ContentBlock where
  | text (text : String)
  | toolUse (id name : String) (input : Json)
  | toolResult (toolUseId content : String) (isError : Bool)
  deriving Inhabited

structure Message where
  role : Role
  content : List ContentBlock
  deriving Inhabited

namespace Message

def ofText (role : Role) (text : String) : Message := ⟨role, [.text text]⟩

/-- All that the message says in words. -/
def text (m : Message) : String :=
  String.join (m.content.filterMap fun | .text t => some t | _ => none)

def toolUses (m : Message) : List (String × String × Json) :=
  m.content.filterMap fun | .toolUse id name input => some (id, name, input) | _ => none

end Message

inductive StopReason where
  | endTurn | toolUse | maxTokens
  deriving DecidableEq, Inhabited

structure ToolCall where
  id : String
  name : String
  input : Json
  deriving Inhabited

structure Completion where
  text : String
  toolCalls : List ToolCall := []
  stopReason : StopReason := .endTurn
  inputTokens : Nat := 0
  outputTokens : Nat := 0
  deriving Inhabited

/-- The answer as a message of the conversation; words come before calls. -/
def Completion.toMessage (c : Completion) : Message :=
  ⟨.assistant, (if c.text.isEmpty then [] else [.text c.text]) ++
    c.toolCalls.map fun call => .toolUse call.id call.name call.input⟩

structure ToolResult where
  content : String
  isError : Bool := false
  deriving DecidableEq, Inhabited

structure ToolDefinition where
  name : String
  description : String
  inputSchema : Json
  deriving Inhabited

structure Passage where
  text : String := ""
  score : Option Binary := none
  metadata : Json := .null
  deriving Inhabited

/-! ## JSON -/

namespace Role

def name : Role → String
  | system => "system"
  | user => "user"
  | assistant => "assistant"

def read : Reader Role := Reader.choice ([system, user, assistant].map fun r => (r.name, r))

end Role

namespace ContentBlock

def textShape : Shape String :=
  ⟨"variant ContentBlock::Text", [.of "text" .required Reader.text fun a _ => a]⟩

def toolUseShape : Shape ToolCall where
  title := "variant ContentBlock::ToolUse"
  slots :=
    [ .of "id" .required Reader.text fun a s => { s with id := a },
      .of "name" .required Reader.text fun a s => { s with name := a },
      .of "input" .required Reader.json fun a s => { s with input := a } ]

def toolResultShape : Shape (String × ToolResult) where
  title := "variant ContentBlock::ToolResult"
  slots :=
    [ .of "tool_use_id" .required Reader.text fun a s => (a, s.2),
      .of "content" .required Reader.text fun a s => (s.1, { s.2 with content := a }),
      .of "is_error" .required Reader.bool fun a s => (s.1, { s.2 with isError := a }) ]

def read : Reader ContentBlock :=
  Reader.tagged "ContentBlock" "type" { known := [
      ("text", fun v => (textShape.read "" v).map text),
      ("tool_use", fun v =>
        (toolUseShape.read ⟨"", "", .null⟩ v).map fun c => toolUse c.id c.name c.input),
      ("tool_result", fun v =>
        (toolResultShape.read ("", ⟨"", false⟩) v).map fun (id, r) =>
          toolResult id r.content r.isError)] }

def toJson : ContentBlock → Json
  | text t => .obj [("type", .str "text"), ("text", .str t)]
  | toolUse id name input =>
    .obj [("type", .str "tool_use"), ("id", .str id), ("name", .str name), ("input", input)]
  | toolResult id content isError =>
    .obj [("type", .str "tool_result"), ("tool_use_id", .str id), ("content", .str content),
      ("is_error", .bool isError)]

end ContentBlock

namespace Message

def shape : Shape Message where
  title := "ChatMessage"
  slots :=
    [ .of "role" .required Role.read fun a s => { s with role := a },
      .of "content" .required (Reader.list ContentBlock.read)
        fun a s => { s with content := a } ]

def read : Reader Message := shape.read ⟨.system, []⟩

def toJson (m : Message) : Json :=
  .obj [("role", .str m.role.name), ("content", .arr (m.content.map ContentBlock.toJson))]

end Message

namespace StopReason

def name : StopReason → String
  | endTurn => "EndTurn"
  | toolUse => "ToolUse"
  | maxTokens => "MaxTokens"

def read : Reader StopReason :=
  Reader.choice ([endTurn, toolUse, maxTokens].map fun r => (r.name, r))

def toJson (r : StopReason) : Json := .str r.name

end StopReason

namespace ToolDefinition

def shape : Shape ToolDefinition where
  title := "ToolDefinition"
  slots :=
    [ .of "name" .required Reader.text fun a s => { s with name := a },
      .of "description" .required Reader.text fun a s => { s with description := a },
      .of "input_schema" .required Reader.json fun a s => { s with inputSchema := a } ]

def read : Reader ToolDefinition := shape.read ⟨"", "", .null⟩

def toJson (d : ToolDefinition) : Json :=
  .obj [("name", .str d.name), ("description", .str d.description),
    ("input_schema", d.inputSchema)]

end ToolDefinition

namespace Passage

def shape : Shape Passage where
  title := "RetrievedNode"
  slots :=
    [ .of "text" .defaulted Reader.text fun a s => { s with text := a },
      .of "score" .defaulted (Reader.option Reader.double) fun a s => { s with score := a },
      .of "metadata" .defaulted Reader.json fun a s => { s with metadata := a } ]

def read : Reader Passage := shape.read {}

def toJson (p : Passage) : Json :=
  .obj [("text", .str p.text), ("score", .ofOption .ofDouble p.score), ("metadata", p.metadata)]

end Passage
end EventFlow
