/-
  EventFlow.Model.OpenAi — conversations as OpenAI's chat completions put them.

  Each result of a tool is a message of its own, and the arguments of a call are JSON
  written into a text.
-/

import EventFlow.Http.Exchange
import EventFlow.Services
import EventFlow.Settings.Codec

namespace EventFlow.OpenAi

/-! ## Requests -/

structure WireCall where
  id : String
  type : String := "function"
  name : String
  /-- JSON, as text. -/
  arguments : String := ""
  deriving DecidableEq, Inhabited

structure WireMessage where
  role : String
  content : Option String
  toolCalls : List WireCall := []
  toolCallId : Option String := none
  deriving DecidableEq, Inhabited

def wireCall (call : String × String × Json) : WireCall :=
  { id := call.1, name := call.2.1, arguments := call.2.2.compact }

def toolResults (m : Message) : List (String × String) :=
  m.content.filterMap fun | .toolResult id content _ => some (id, content) | _ => none

def encodeMessage (m : Message) : List WireMessage :=
  match m.role with
  | .system => [{ role := "system", content := some m.text }]
  | .user =>
    match toolResults m with
    | [] => [{ role := "user", content := some m.text }]
    | results => results.map fun (id, content) =>
        { role := "tool", content := some content, toolCallId := some id }
  | .assistant =>
    let calls := m.toolUses.map wireCall
    let content := if m.text.isEmpty && !calls.isEmpty then none else some m.text
    [{ role := "assistant", content, toolCalls := calls }]

def encode (messages : List Message) : List WireMessage := messages.flatMap encodeMessage

def WireCall.toJson (c : WireCall) : Json :=
  .obj [("id", .str c.id), ("type", .str c.type),
    ("function", .obj [("name", .str c.name), ("arguments", .str c.arguments)])]

def WireMessage.toJson (m : WireMessage) : Json :=
  .obj ([("role", .str m.role)] ++ Json.entry? "content" .str m.content ++
    (if m.toolCalls.isEmpty then [] else [("tool_calls", .arr (m.toolCalls.map WireCall.toJson))]) ++
    Json.entry? "tool_call_id" .str m.toolCallId)

def toolJson (t : ToolDefinition) : Json :=
  .obj [("type", .str "function"), ("function", .obj [("name", .str t.name),
    ("description", .str t.description), ("parameters", t.inputSchema)])]

def body (call : ModelCall) : Json :=
  .obj ([("model", .str call.model.modelId),
    ("messages", .arr ((encode call.messages).map WireMessage.toJson)),
    ("max_tokens", .nat call.model.maxTokens),
    ("temperature", .ofSingle call.model.temperature)] ++
    if call.tools.isEmpty then [] else [("tools", .arr (call.tools.map toolJson))])

def usualAddress : String := "https://api.openai.com/v1/chat/completions"

def request (call : ModelCall) : Result Call :=
  match call.model.apiKey with
  | none => .error (.invalidConfig "OpenAI API key not set")
  | some key => .ok {
      method := .post
      address := call.model.baseUrl.getD usualAddress
      headers := [EventFlow.Call.bearer key]
      body := some (body call) }

/-! ## Responses -/

structure Usage where
  prompt : Nat := 0
  completion : Nat := 0
  deriving DecidableEq, Inhabited

structure Reply where
  content : Option String := none
  toolCalls : List WireCall := []
  deriving DecidableEq, Inhabited

structure Choice where
  reply : Reply := {}
  finishReason : Option String := none
  deriving DecidableEq, Inhabited

structure Answer where
  choices : List Choice := []
  usage : Option Usage := none
  deriving DecidableEq, Inhabited

def functionShape : Shape (String × String) where
  title := "OaiFunction"
  slots :=
    [ .of "name" .required Reader.text fun a s => (a, s.2),
      .of "arguments" .defaulted Reader.text fun a s => (s.1, a) ]

def callShape : Shape WireCall where
  title := "OaiToolCall"
  slots :=
    [ .of "id" .required Reader.text fun a s => { s with id := a },
      .of "type" .defaulted Reader.text fun a s => { s with type := a },
      .of "function" .required (functionShape.read ("", ""))
        fun a s => { s with name := a.1, arguments := a.2 } ]

def readCall : Reader WireCall := callShape.read { id := "", name := "" }

def replyShape : Shape Reply where
  title := "ResponseMessage"
  slots :=
    [ .of "content" .defaulted (Reader.option Reader.text) fun a s => { s with content := a },
      .of "tool_calls" .defaulted (Reader.list readCall) fun a s => { s with toolCalls := a } ]

def choiceShape : Shape Choice where
  title := "Choice"
  slots :=
    [ .of "message" .required (replyShape.read {}) fun a s => { s with reply := a },
      .of "finish_reason" .defaulted (Reader.option Reader.text)
        fun a s => { s with finishReason := a } ]

def usageShape : Shape Usage where
  title := "Usage"
  slots :=
    [ .of "prompt_tokens" .defaulted Reader.natural64 fun a s => { s with prompt := a },
      .of "completion_tokens" .defaulted Reader.natural64
        fun a s => { s with completion := a } ]

def answerShape : Shape Answer where
  title := "CompletionResponse"
  slots :=
    [ .of "choices" .defaulted (Reader.list (choiceShape.read {}))
        fun a s => { s with choices := a },
      .of "usage" .defaulted (Reader.option (usageShape.read {}))
        fun a s => { s with usage := a } ]

/-- The arguments of a call; blank text stands for none. -/
def readArguments (text : String) : Result Json :=
  if (Text.trim text.toList).isEmpty then .ok (.obj [])
  else (Reader.ofText Reader.json text).mapError fun fault =>
    .replyUnreadable ("tool arguments: " ++ fault.message)

def toolCall (c : WireCall) : Result ToolCall := do
  return ⟨c.id, c.name, ← readArguments c.arguments⟩

def stopReason (finish : Option String) (calls : List ToolCall) : StopReason :=
  if finish = some "tool_calls" then .toolUse
  else if finish = some "length" then .maxTokens
  else if calls.isEmpty then .endTurn
  else .toolUse

/-- What the first choice says. -/
def completion (answer : Answer) : Result Completion :=
  match answer.choices with
  | [] => .error (.replyUnreadable "response has no choices")
  | choice :: _ => do
    let calls ← choice.reply.toolCalls.mapM toolCall
    let usage := answer.usage.getD {}
    return {
      text := choice.reply.content.getD ""
      toolCalls := calls
      stopReason := stopReason choice.finishReason calls
      inputTokens := usage.prompt
      outputTokens := usage.completion }

def parse (text : String) : Result Completion := do
  let answer ← (Reader.ofText (answerShape.read {}) text).mapError fun fault =>
    Failure.replyUnreadable fault.message
  completion answer

end EventFlow.OpenAi
