/-
  EventFlow.Model.Gemini — conversations as Gemini's content puts them.

  Content is made of parts: texts, calls of functions and their responses. Calls have no
  ids; the name of the function serves as one.
-/

import EventFlow.Http.Exchange
import EventFlow.Services
import EventFlow.Settings.Codec

namespace EventFlow.Gemini

inductive Part where
  | text (text : String)
  | functionCall (name : String) (args : Json)
  | functionResponse (name : String) (response : Json)
  deriving Inhabited

structure Content where
  role : Option String := none
  parts : List Part := []
  deriving Inhabited

/-! ## Requests -/

def encodeBlock? : ContentBlock → Option Part
  | .text t => if t.isEmpty then none else some (.text t)
  | .toolUse _ name input => some (.functionCall name input)
  | .toolResult id content _ => some (.functionResponse id (.obj [("result", .str content)]))

/-- A message of nothing but empty texts is left out. -/
def encodeMessage? (m : Message) : Option Content :=
  let parts := m.content.filterMap encodeBlock?
  if parts.isEmpty then none
  else match m.role with
    | .system => none
    | .user => some ⟨some "user", parts⟩
    | .assistant => some ⟨some "model", parts⟩

def encode (messages : List Message) : List Content := messages.filterMap encodeMessage?

/-- What the last system message says. -/
def system? (messages : List Message) : Option Content :=
  (messages.filter (·.role = .system)).getLast?.map fun m => { parts := [.text m.text] }

def Part.toJson : Part → Json
  | text t => .obj [("text", .str t)]
  | functionCall name args =>
    .obj [("functionCall", .obj [("name", .str name), ("args", args)])]
  | functionResponse name response =>
    .obj [("functionResponse", .obj [("name", .str name), ("response", response)])]

def Content.toJson (c : Content) : Json :=
  .obj (Json.entry? "role" .str c.role ++ [("parts", .arr (c.parts.map Part.toJson))])

def toolJson (t : ToolDefinition) : Json :=
  .obj [("name", .str t.name), ("description", .str t.description),
    ("parameters", t.inputSchema)]

def body (call : ModelCall) : Json :=
  .obj ([("contents", .arr ((encode call.messages).map Content.toJson))] ++
    Json.entry? "system_instruction" Content.toJson (system? call.messages) ++
    (if call.tools.isEmpty then []
      else [("tools", .arr [.obj [("function_declarations", .arr (call.tools.map toolJson))]])]) ++
    [("generation_config", .obj [("max_output_tokens", .nat call.model.maxTokens),
      ("temperature", .ofSingle call.model.temperature)])])

def usualAddress : String := "https://generativelanguage.googleapis.com/v1beta"

/-- The address of a model under a base address. -/
def address (base modelId : String) : String :=
  String.ofList (Text.trimRightBy (· = '/') base.toList) ++ "/models/" ++ modelId ++
    ":generateContent"

def request (call : ModelCall) : Result Call :=
  match call.model.apiKey with
  | none => .error (.invalidConfig "Gemini API key not set")
  | some key => .ok {
      method := .post
      address := address (call.model.baseUrl.getD usualAddress) call.model.modelId
      headers := [("x-goog-api-key", key)]
      body := some (body call) }

/-! ## Responses -/

structure Usage where
  prompt : Nat := 0
  candidates : Nat := 0
  deriving DecidableEq, Inhabited

structure Candidate where
  content : Option Content := none
  finishReason : Option String := none
  deriving Inhabited

structure Answer where
  candidates : List Candidate := []
  usage : Option Usage := none
  deriving Inhabited

def textShape : Shape String :=
  ⟨"variant GeminiPart::Text", [.of "text" .required Reader.text fun a _ => a]⟩

def callShape : Shape (String × Json) where
  title := "GeminiFnCall"
  slots :=
    [ .of "name" .required Reader.text fun a s => (a, s.2),
      .of "args" .defaulted Reader.json fun a s => (s.1, a) ]

def functionCallShape : Shape (String × Json) where
  title := "variant GeminiPart::FunctionCall"
  slots := [.of "functionCall" .required (callShape.read ("", .null)) fun a _ => a]

def responseShape : Shape (String × Json) where
  title := "GeminiFnResp"
  slots :=
    [ .of "name" .required Reader.text fun a s => (a, s.2),
      .of "response" .required Reader.json fun a s => (s.1, a) ]

def functionResponseShape : Shape (String × Json) where
  title := "variant GeminiPart::FunctionResponse"
  slots := [.of "functionResponse" .required (responseShape.read ("", .null)) fun a _ => a]

def readPart : Reader Part :=
  Reader.untagged "GeminiPart"
    [ fun v => (textShape.read "" v).map .text,
      fun v => (functionCallShape.read ("", .null) v).map fun (name, args) =>
        .functionCall name args,
      fun v => (functionResponseShape.read ("", .null) v).map fun (name, response) =>
        .functionResponse name response ]

def contentShape : Shape Content where
  title := "GeminiContent"
  slots :=
    [ .of "role" .defaulted (Reader.option Reader.text) fun a s => { s with role := a },
      .of "parts" .defaulted (Reader.list readPart) fun a s => { s with parts := a } ]

def candidateShape : Shape Candidate where
  title := "GeminiCandidate"
  slots :=
    [ .of "content" .optional (Reader.option (contentShape.read {}))
        fun a s => { s with content := a },
      .of "finishReason" .defaulted (Reader.option Reader.text)
        fun a s => { s with finishReason := a } ]

def usageShape : Shape Usage where
  title := "GeminiUsage"
  slots :=
    [ .of "promptTokenCount" .defaulted Reader.natural64 fun a s => { s with prompt := a },
      .of "candidatesTokenCount" .defaulted Reader.natural64
        fun a s => { s with candidates := a } ]

def answerShape : Shape Answer where
  title := "GeminiResponse"
  slots :=
    [ .of "candidates" .defaulted (Reader.list (candidateShape.read {}))
        fun a s => { s with candidates := a },
      .of "usageMetadata" .defaulted (Reader.option (usageShape.read {}))
        fun a s => { s with usage := a } ]

def partTexts (parts : List Part) : List String :=
  parts.filterMap fun | .text t => some t | _ => none

def partCalls (parts : List Part) : List ToolCall :=
  parts.filterMap fun | .functionCall name args => some ⟨name, name, args⟩ | _ => none

def stopReason (calls : List ToolCall) (finish : Option String) : StopReason :=
  if !calls.isEmpty then .toolUse
  else if finish = some "MAX_TOKENS" then .maxTokens
  else .endTurn

/-- What the first candidate says. -/
def completion (answer : Answer) : Result Completion :=
  match answer.candidates with
  | [] => .error (.replyUnreadable "response has no candidates")
  | candidate :: _ =>
    let parts := (candidate.content.map (·.parts)).getD []
    let calls := partCalls parts
    let usage := answer.usage.getD {}
    .ok {
      text := String.join (partTexts parts)
      toolCalls := calls
      stopReason := stopReason calls candidate.finishReason
      inputTokens := usage.prompt
      outputTokens := usage.candidates }

def parse (text : String) : Result Completion := do
  let answer ← (Reader.ofText (answerShape.read {}) text).mapError fun fault =>
    Failure.replyUnreadable fault.message
  completion answer

end EventFlow.Gemini
