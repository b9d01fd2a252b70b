/-
  EventFlow.Settings.Config — the configuration file.
-/

import EventFlow.Settings.Codec
import EventFlow.Settings.Environment
import EventFlow.Toml.Parser
import EventFlow.Toml.Printer

namespace EventFlow

namespace PerProvider

def toToml (t : PerProvider) : Toml :=
  let entry (key : String) (value : Option String) : Toml.Entries :=
    (value.map fun v => (key, Toml.text v)).toList
  .table .header
    (entry "openai" t.openAi ++ entry "anthropic" t.anthropic ++ entry "google" t.google)

end PerProvider

namespace AppConfig

/-- Where and why a configuration is refused is left to the one who wrote it. -/
def refusal : Failure := .invalidConfig "TOML parse error"

/-- Reads a configuration, references to the environment first. -/
def ofToml (env : Environment) (text : String) : Result AppConfig :=
  match Toml.parse? (String.ofList (env.expand text.toList)) with
  | none => .error refusal
  | some table => (read table.outline).mapError fun _ => refusal

def retrievalKeyName : String := "LLAMA_CLOUD_API_KEY"

/-- The variable that holds the key for a provider. -/
def keyName : Provider → String
  | .openAi => "OPENAI_API_KEY"
  | .anthropic => "ANTHROPIC_API_KEY"
  | .gemini => "GOOGLE_API_KEY"

def keyNames : List String := retrievalKeyName :: Provider.all.map keyName

/-- The configuration without a file: the usual one, with the keys in the environment. -/
def ofEnvironment (env : Environment) : AppConfig :=
  { settings := {
      retrievalKey := Text.nonEmpty (env retrievalKeyName)
      apiKeys := {
        openAi := Text.nonEmpty (env (keyName .openAi))
        anthropic := Text.nonEmpty (env (keyName .anthropic))
        google := Text.nonEmpty (env (keyName .gemini)) } } }

/-- What is shown in place of a key: that there is one, and how it ends. -/
def mask (key : String) : String :=
  "****" ++ String.ofList (key.toList.drop (key.length - 4))

/-- The configuration as it may be shown. -/
def masked (c : AppConfig) : AppConfig :=
  let keys := c.settings.apiKeys
  { c with settings := { c.settings with
      retrievalKey := c.settings.retrievalKey.map mask
      apiKeys := {
        openAi := keys.openAi.map mask
        anthropic := keys.anthropic.map mask
        google := keys.google.map mask } } }

def toToml (c : AppConfig) : Toml :=
  .table .header
    [ ("settings", .table .header
        ([("default_llm", Toml.text c.settings.defaultLlm)] ++
          (c.settings.retrievalKey.map fun k => ("llama_cloud_api_key", Toml.text k)).toList ++
          [("api_keys", c.settings.apiKeys.toToml), ("base_urls", c.settings.baseUrls.toToml),
            ("retrieval_top_k", .int c.settings.retrievalTopK.toNat)])),
      ("agent", .table .header
        [("max_turns", .int c.agent.maxTurns), ("max_tokens", .int c.agent.maxTokens)]),
      ("retrieval", .table .header [("base_url", .text c.retrieval.baseUrl)]) ]

end AppConfig
end EventFlow
