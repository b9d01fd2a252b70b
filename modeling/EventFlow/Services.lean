/-
  EventFlow.Services — what a workflow asks of the world outside.

  A service is a function that also carries the state of the world along, so it may answer
  each time differently, fail, or keep a record of what it was asked.
-/

import EventFlow.Conversation
import EventFlow.Run.State

namespace EventFlow

structure ModelCall where
  model : ModelConfig
  messages : List Message
  tools : List ToolDefinition
  deriving Inhabited

structure ChatRequest where
  model : ModelConfig
  systemPrompt : Option String
  message : String
  deriving DecidableEq, Inhabited

/-- All that an agent needs to carry out one step. -/
structure AgentRequest where
  workflow : Workflow
  node : String
  /-- The event that led to the step, if it is known. -/
  via : Option Event
  outputs : Outputs
  deriving Inhabited

abbrev Service (σ ρ α : Type) := ρ → σ → Result α × σ

abbrev ModelService (σ : Type) := Service σ ModelCall Completion

abbrev ChatService (σ : Type) := Service σ ChatRequest String

abbrev AgentService (σ : Type) := Service σ AgentRequest String

/-- A search of an index: its id and the query. -/
abbrev RetrievalService (σ : Type) := Service σ (String × String) (List Passage)

/-- A human who answers a prompt. -/
abbrev InputChannel (σ : Type) := Service σ String String

structure Services (σ : Type) where
  chat : ChatService σ
  agent : AgentService σ

/-! ## Scripts -/

/-- Replies given one after the other, and what was asked so far. -/
structure Script (ρ α : Type) where
  replies : List (Result α)
  requests : List ρ := []

namespace Script

variable {ρ α : Type}

/-- Takes the next reply; once there is none left, every request fails as told. -/
def answer (exhausted : Failure) : Service (Script ρ α) ρ α := fun request s =>
  match s.replies with
  | reply :: rest => (reply, ⟨rest, s.requests ++ [request]⟩)
  | [] => (.error exhausted, { s with requests := s.requests ++ [request] })

def noReply (who : String) : String := who ++ ": no scripted response left"

def chat : ChatService (Script ChatRequest String) :=
  answer (.requestFailed (noReply "MockChat"))

def agent : AgentService (Script AgentRequest String) :=
  answer (.requestFailed (noReply "MockAgent"))

def model : ModelService (Script ModelCall Completion) :=
  answer (.requestFailed (noReply "MockLlmClient"))

def input : InputChannel (Script String String) :=
  answer (.invalidConfig "ScriptedInput: no answer left")

end Script
end EventFlow
