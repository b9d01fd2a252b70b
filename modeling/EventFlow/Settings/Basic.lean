/-
  EventFlow.Settings.Basic — the settings of a workflow, and the model that a step uses.
-/

import EventFlow.Binary.Single
import EventFlow.Failure
import EventFlow.Provider

namespace EventFlow

/-- A text for each provider that has one: a key, or an address that replaces the usual one. -/
structure PerProvider where
  openAi : Option String := none
  anthropic : Option String := none
  google : Option String := none
  deriving DecidableEq, Inhabited

def PerProvider.get (texts : PerProvider) : Provider → Option String
  | .openAi => texts.openAi
  | .anthropic => texts.anthropic
  | .gemini => texts.google

/-- One fifth. -/
def defaultTemperature : Single := Single.ofDecimal 2 (-1)

def defaultMaxTokens : Nat := 4096

structure Settings where
  defaultLlm : String := "gpt-4o"
  retrievalKey : Option String := none
  apiKeys : PerProvider := {}
  baseUrls : PerProvider := {}
  /-- A search asks for this many passages. -/
  retrievalTopK : UInt64 := 10
  deriving DecidableEq, Inhabited

/-- A model, ready to be called. -/
structure ModelConfig where
  provider : Provider
  modelId : String
  apiKey : Option String := none
  baseUrl : Option String := none
  maxTokens : Nat := defaultMaxTokens
  temperature : Single := defaultTemperature
  deriving DecidableEq, Inhabited

namespace Settings

/-- The key for a provider; an empty one counts as none. -/
def apiKey (s : Settings) (p : Provider) : Option String := Text.nonEmpty (s.apiKeys.get p)

/-- The provider of the model named for a step, or else of the usual model. -/
def provider (s : Settings) (llm : Option String) : Result Provider :=
  let name := (Text.nonEmpty llm).getD s.defaultLlm
  match Provider.ofModelName? name with
  | some p => .ok p
  | none => .error (.providerNotSupported name)

def resolveModel (s : Settings) (llm model : Option String) (temperature : Option Single)
    (maxTokens : Nat) : Result ModelConfig := do
  let p ← s.provider llm
  return {
    provider := p
    modelId := (Text.nonEmpty model).getD p.defaultModel
    apiKey := s.apiKey p
    baseUrl := s.baseUrls.get p
    maxTokens
    temperature := temperature.getD defaultTemperature }

end Settings

structure AgentLimits where
  maxTurns : Nat := 10
  maxTokens : Nat := defaultMaxTokens
  deriving DecidableEq, Inhabited

structure RetrievalSite where
  baseUrl : String := "https://api.cloud.llamaindex.ai"
  deriving DecidableEq, Inhabited

structure AppConfig where
  settings : Settings := {}
  agent : AgentLimits := {}
  retrieval : RetrievalSite := {}
  deriving DecidableEq, Inhabited

end EventFlow
