/-
  EventFlow.Model.Client — language models over the network, behind one service.
-/

import EventFlow.Model.Anthropic
import EventFlow.Model.Gemini
import EventFlow.Model.OpenAi

namespace EventFlow

variable {σ : Type}

/-- How a provider is asked, and how its answers read. -/
structure WireFormat where
  request : ModelCall → Result Call
  parse : String → Result Completion

def Provider.wireFormat : Provider → WireFormat
  | .openAi => ⟨OpenAi.request, OpenAi.parse⟩
  | .anthropic => ⟨Anthropic.request, Anthropic.parse⟩
  | .gemini => ⟨Gemini.request, Gemini.parse⟩

/-- The service of a provider. -/
def Provider.client (p : Provider) (net : Network σ) : ModelService σ := fun call s =>
  match p.wireFormat.request call with
  | .error f => (.error f, s)
  | .ok request =>
    match request.send net s with
    | (.error reason, s) => (.error (.requestFailed reason), s)
    | (.ok response, s) => (p.wireFormat.parse response.text, s)

abbrev Router (σ : Type) := List (Provider × ModelService σ)

namespace Router

/-- Puts in the service of a provider, in place of an earlier one. -/
def withClient (r : Router σ) (p : Provider) (client : ModelService σ) : Router σ :=
  (p, client) :: r.filter (·.1 ≠ p)

/-- A router with the services of all providers. -/
def overNetwork (net : Network σ) : Router σ :=
  Provider.all.foldl (fun r p => r.withClient p (p.client net)) []

/-- Hands a call to the service of its model's provider. -/
def complete (r : Router σ) : ModelService σ := fun call s =>
  match r.find? (·.1 = call.model.provider) with
  | some (_, client) => client call s
  | none => (.error (.providerNotSupported call.model.provider.name), s)

end Router

namespace ChatService

/-- The conversation that a question opens. -/
def conversation (request : ChatRequest) : List Message :=
  ((Text.nonEmpty request.systemPrompt).map (Message.ofText .system)).toList ++
    [Message.ofText .user request.message]

/-- Questions to a model, one at a time and without tools. -/
def ofModel (complete : ModelService σ) : ChatService σ := fun request s =>
  let (reply, s) := complete ⟨request.model, conversation request, []⟩ s
  (reply.map (·.text), s)

end ChatService
end EventFlow
