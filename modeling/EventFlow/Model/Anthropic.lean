/-
  EventFlow.Model.Anthropic — conversations as Anthropic's messages put them.

  System messages stand apart from the others, where the last one counts. The content of
  a message is a text if it is nothing else, or else a list of blocks.
-/

import EventFlow.Http.Exchange
import EventFlow.Services
import EventFlow.Settings.Codec

namespace EventFlow.Anthropic

/-! ## Requests -/

structure WireMessage where
  role : String
  content : Json
  deriving Inhabited

def encodeBlock (b : ContentBlock) : Json :=
  match b with
  | .text t => (Json.obj [("type", .str "text"), ("text", .str t)]).sorted
  | .toolUse id name input =>
    (Json.obj [("type", .str "tool_use"), ("id", .str id), ("name", .str name),
      ("input", input)]).sorted
  | .toolResult id content isError =>
    (Json.obj [("type", .str "tool_result"), ("tool_use_id", .str id),
      ("content", .str content), ("is_error", .bool isError)]).sorted

def encodeContent : List ContentBlock → Json
  | [.text t] => .str t
  | blocks => .arr (blocks.map encodeBlock)

def encodeMessage? (m : Message) : Option WireMessage :=
  match m.role with
  | .system => none
  | .user => some ⟨"user", encodeContent m.content⟩
  | .assistant => some ⟨"assistant", encodeContent m.content⟩

def encode (messages : List Message) : List WireMessage := messages.filterMap encodeMessage?

/-- What the last system message says. -/
def system? (messages : List Message) : Option String :=
  (messages.filter (·.role = .system)).getLast?.map Message.text

def WireMessage.toJson (m : WireMessage) : Json :=
  .obj [("role", .str m.role), ("content", m.content)]

def body (call : ModelCall) : Json :=
  .obj ([("model", .str call.model.modelId), ("max_tokens", .nat call.model.maxTokens),
    ("temperature", .ofSingle call.model.temperature),
    ("messages", .arr ((encode call.messages).map WireMessage.toJson))] ++
    Json.entry? "system" .str (system? call.messages) ++
    if call.tools.isEmpty then [] else [("tools", .arr (call.tools.map ToolDefinition.toJson))])

def usualAddress : String := "https://api.anthropic.com/v1/messages"

def version : String := "2023-06-01"

def request (call : ModelCall) : Result Call :=
  match call.model.apiKey with
  | none => .error (.invalidConfig "Anthropic API key not set")
  | some key => .ok {
      method := .post
      address := call.model.baseUrl.getD usualAddress
      headers := [("x-api-key", key), ("anthropic-version", version)]
      body := some (body call) }

/-! ## Responses -/

/-- A block of an answer, as far as it is of interest. -/
inductive Block where
  | text (text : String)
  | toolUse (call : ToolCall)
  | other
  deriving Inhabited

structure Usage where
  input : Nat := 0
  output : Nat := 0
  deriving DecidableEq, Inhabited

structure Answer where
  content : List Block := []
  stopReason : Option String := none
  usage : Option Usage := none
  deriving Inhabited

def textShape : Shape String :=
  ⟨"variant ResponseBlock::Text", [.of "text" .required Reader.text fun a _ => a]⟩

def toolUseShape : Shape ToolCall :=
  { ContentBlock.toolUseShape with title := "variant ResponseBlock::ToolUse" }

def readBlock : Reader Block :=
  Reader.tagged "ResponseBlock" "type" {
    known := [
      ("text", fun v => (textShape.read "" v).map .text),
      ("tool_use", fun v => (toolUseShape.read ⟨"", "", .null⟩ v).map .toolUse)]
    other := some (Reader.nothing .other) }

def usageShape : Shape Usage where
  title := "UsageInfo"
  slots :=
    [ .of "input_tokens" .defaulted Reader.natural64 fun a s => { s with input := a },
      .of "output_tokens" .defaulted Reader.natural64 fun a s => { s with output := a } ]

def answerShape : Shape Answer where
  title := "MessagesResponse"
  slots :=
    [ .of "content" .defaulted (Reader.list readBlock) fun a s => { s with content := a },
      .of "stop_reason" .defaulted (Reader.option Reader.text)
        fun a s => { s with stopReason := a },
      .of "usage" .defaulted (Reader.option (usageShape.read {}))
        fun a s => { s with usage := a } ]

def stopReason (reason : Option String) : StopReason :=
  if reason = some "tool_use" then .toolUse
  else if reason = some "max_tokens" then .maxTokens
  else .endTurn

def completion (answer : Answer) : Completion where
  text := String.join (answer.content.filterMap fun | .text t => some t | _ => none)
  toolCalls := answer.content.filterMap fun | .toolUse call => some call | _ => none
  stopReason := stopReason answer.stopReason
  inputTokens := (answer.usage.getD {}).input
  outputTokens := (answer.usage.getD {}).output

def parse (text : String) : Result Completion := do
  let answer ← (Reader.ofText (answerShape.read {}) text).mapError fun fault =>
    Failure.replyUnreadable fault.message
  return completion answer

end EventFlow.Anthropic
