/-
  EventFlow.Settings.Codec — settings and models as JSON.
-/

import EventFlow.Settings.Basic

namespace EventFlow

namespace Provider

def read : Reader Provider := Reader.choice (all.map fun p => (p.name, p))

def toJson (p : Provider) : Json := .str p.name

end Provider

namespace PerProvider

def slots : List (Slot PerProvider) :=
  [ .of "openai" .defaulted (Reader.option Reader.text) fun a s => { s with openAi := a },
    .of "anthropic" .defaulted (Reader.option Reader.text) fun a s => { s with anthropic := a },
    .of "google" .defaulted (Reader.option Reader.text) fun a s => { s with google := a } ]

def read (title : String) : Reader PerProvider := Shape.read ⟨title, slots⟩ {}

def toJson (t : PerProvider) : Json :=
  .obj (Json.entry? "openai" .str t.openAi ++ Json.entry? "anthropic" .str t.anthropic ++
    Json.entry? "google" .str t.google)

end PerProvider

namespace Settings

def shape : Shape Settings where
  title := "Settings"
  slots :=
    [ .of "default_llm" .defaulted Reader.text (fun a s => { s with defaultLlm := a })
        ["defaultLLM"],
      .of "llama_cloud_api_key" .defaulted (Reader.option Reader.text)
        (fun a s => { s with retrievalKey := a }) ["llamaCloudApiKey"],
      .of "api_keys" .defaulted (PerProvider.read "ApiKeys")
        (fun a s => { s with apiKeys := a }) ["apiKeys"],
      .of "base_urls" .defaulted (PerProvider.read "BaseUrls")
        (fun a s => { s with baseUrls := a }) ["baseUrls"],
      .of "retrieval_top_k" .defaulted Reader.size
        (fun a s => { s with retrievalTopK := .ofNat a }) ["retrievalTopK"] ]

def read : Reader Settings := shape.read {}

def toJson (s : Settings) : Json :=
  .obj ([("default_llm", .str s.defaultLlm)] ++
    Json.entry? "llama_cloud_api_key" .str s.retrievalKey ++
    [("api_keys", s.apiKeys.toJson), ("base_urls", s.baseUrls.toJson),
      ("retrieval_top_k", .nat s.retrievalTopK.toNat)])

end Settings

namespace ModelConfig

def shape : Shape ModelConfig where
  title := "ModelConfig"
  slots :=
    [ .of "provider" .required Provider.read fun a s => { s with provider := a },
      .of "model_id" .required Reader.text fun a s => { s with modelId := a },
      .of "api_key" .defaulted (Reader.option Reader.text) fun a s => { s with apiKey := a },
      .of "base_url" .defaulted (Reader.option Reader.text) fun a s => { s with baseUrl := a },
      .of "max_tokens" .defaulted Reader.natural32 fun a s => { s with maxTokens := a },
      .of "temperature" .defaulted Reader.single fun a s => { s with temperature := a } ]

def read : Reader ModelConfig := shape.read { provider := .openAi, modelId := "" }

def toJson (m : ModelConfig) : Json :=
  .obj [("provider", m.provider.toJson), ("model_id", .str m.modelId),
    ("api_key", .ofOption .str m.apiKey), ("base_url", .ofOption .str m.baseUrl),
    ("max_tokens", .nat m.maxTokens), ("temperature", .ofSingle m.temperature)]

end ModelConfig

namespace AgentLimits

def shape : Shape AgentLimits where
  title := "AgentConfig"
  slots :=
    [ .of "max_turns" .defaulted Reader.size fun a s => { s with maxTurns := a },
      .of "max_tokens" .defaulted Reader.natural32 fun a s => { s with maxTokens := a } ]

def toJson (a : AgentLimits) : Json :=
  .obj [("max_turns", .nat a.maxTurns), ("max_tokens", .nat a.maxTokens)]

end AgentLimits

namespace RetrievalSite

def shape : Shape RetrievalSite where
  title := "RetrievalConfig"
  slots := [ .of "base_url" .defaulted Reader.text fun a _ => { baseUrl := a } ]

def toJson (r : RetrievalSite) : Json := .obj [("base_url", .str r.baseUrl)]

end RetrievalSite

namespace AppConfig

def shape : Shape AppConfig where
  title := "AppConfig"
  slots :=
    [ .of "settings" .defaulted Settings.read fun a s => { s with settings := a },
      .of "agent" .defaulted (AgentLimits.shape.read {}) fun a s => { s with agent := a },
      .of "retrieval" .defaulted (RetrievalSite.shape.read {})
        fun a s => { s with retrieval := a } ]

def read : Reader AppConfig := shape.read {}

def toJson (c : AppConfig) : Json :=
  .obj [("settings", c.settings.toJson), ("agent", c.agent.toJson),
    ("retrieval", c.retrieval.toJson)]

end AppConfig
end EventFlow
