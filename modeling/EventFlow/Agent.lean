/-
  EventFlow.Agent — carrying out an agent's step: a conversation with a model that may
  call tools, for a limited number of turns.
-/

import EventFlow.Agent.Retrieval
import EventFlow.Agent.Toolbox
import EventFlow.Agent.Input

namespace EventFlow

variable {σ : Type}

structure AgentRuntime (σ : Type) where
  limits : AgentLimits := {}
  site : RetrievalSite := {}
  model : ModelService σ
  /-- Takes the place of the retrieval site. -/
  retrieval : Option (RetrievalService σ) := none
  network : Network σ

namespace AgentRuntime

/-- The service that searches for the agent, if there is one or a key for the site. -/
def retrievalFor (r : AgentRuntime σ) (settings : Settings) : Option (RetrievalService σ) :=
  match r.retrieval with
  | some service => some service
  | none => (Text.nonEmpty settings.retrievalKey).map fun key =>
      ((RetrievalClient.new r.site.baseUrl key).withTopK settings.retrievalTopK.toNat).retrieve r.network

/-- Calls the tools that a model asked for, in order. A failure is a result too. -/
def callTools (tools : Toolbox) (retrieve : RetrievalService σ) :
    List ToolCall → σ → List ContentBlock × σ
  | [], s => ([], s)
  | call :: rest, s =>
    let (result, s) := tools.execute retrieve call.name call.input s
    let block : ContentBlock := match result with
      | .ok r => .toolResult call.id r.content r.isError
      | .error f => .toolResult call.id f.message true
    let (blocks, s) := callTools tools retrieve rest s
    (block :: blocks, s)

/-- Goes on with a conversation until the model calls no more tools. -/
def converse (r : AgentRuntime σ) (model : ModelConfig) (tools : Toolbox)
    (retrieve : RetrievalService σ) : Nat → List Message → σ → Result String × σ
  | 0, _, s => (.error (.tooManyTurns r.limits.maxTurns), s)
  | turns + 1, messages, s =>
    match r.model ⟨model, messages, tools.definitions⟩ s with
    | (.error f, s) => (.error f, s)
    | (.ok completion, s) =>
      if completion.toolCalls.isEmpty then (.ok completion.text, s)
      else
        let (results, s) := callTools tools retrieve completion.toolCalls s
        converse r model tools retrieve turns
          (messages ++ [completion.toMessage, ⟨.user, results⟩]) s

/-- The conversation as it starts. -/
def opening (config : PromptAgentConfig) (input : String) : List Message :=
  ((Text.nonEmpty config.systemPrompt).map (Message.ofText .system)).toList ++
    [Message.ofText .user input]

/-- A search without anything to search. -/
def noRetrieval : RetrievalService σ := fun _ s => (.ok [], s)

def notAnAgent (s : Step) : Failure :=
  .invalidGraph ("node " ++ s.id ++ " is a " ++ s.kind.name ++ ", not a promptAgent")

/-- Carries out an agent's step. -/
def run (r : AgentRuntime σ) : AgentService σ := fun request s =>
  match request.workflow.step? request.node with
  | none => (.error (.nodeNotFound request.node), s)
  | some step =>
    match step.config with
    | .promptAgent config =>
      match request.workflow.agentInput step request.via request.outputs with
      | .error f => (.error f, s)
      | .ok input =>
        match request.workflow.settings.resolveModel config.llm config.model config.temperature
            r.limits.maxTokens with
        | .error f => (.error f, s)
        | .ok model =>
          let (tools, retrieve) := match r.retrievalFor request.workflow.settings with
            | some service => (Toolbox.ofSpecs config.tools, service)
            | none => ([], noRetrieval)
          r.converse model tools retrieve r.limits.maxTurns (opening config input) s
    | _ => (.error (notAnAgent step), s)

end AgentRuntime
end EventFlow
