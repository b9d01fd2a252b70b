/-
  EventFlow.Provider — the vendors of language models.
-/

import EventFlow.Text.Basic

namespace EventFlow

inductive Provider where
  | openAi | anthropic | gemini
  deriving DecidableEq, Inhabited

namespace Provider

def all : List Provider := [openAi, anthropic, gemini]

def name : Provider → String
  | openAi => "openai"
  | anthropic => "anthropic"
  | gemini => "gemini"

/-- How the models of a provider are named: `gpt-4o`, `claude-3-5-sonnet`. -/
def modelStem : Provider → String
  | openAi => "gpt"
  | anthropic => "claude"
  | gemini => "gemini"

/-- The provider of a model, by the start of the model's name; case and blanks around the
name do not matter. -/
def ofModelName? (text : String) : Option Provider :=
  let name := (Text.trim text.toList).map Text.toLower
  all.find? fun p => p.modelStem.toList.isPrefixOf name

/-- The model to use where none is named. -/
def defaultModel : Provider → String
  | openAi => "gpt-4.1-mini"
  | anthropic => "claude-sonnet-4-20250514"
  | gemini => "gemini-2.5-pro"

end Provider
end EventFlow
