/-
  EventFlow.Program.Name — the names in a generated program.
-/

import EventFlow.Json.Printer
import EventFlow.Provider

namespace EventFlow

namespace Program

def capitalized : List Char → List Char
  | [] => []
  | c :: rest => Text.toUpper c :: rest

def uncapitalized : List Char → List Char
  | [] => []
  | c :: rest => Text.toLower c :: rest

/-- Words joined, each but the first with a capital. -/
def joinWords : List (List Char) → List Char
  | [] => []
  | first :: rest => uncapitalized first ++ rest.flatMap capitalized

/-- The words of a text as one name: `gpt-4.1-mini` becomes `gpt41Mini`. A name does not
start with a digit; a text without letters and digits has no name. -/
def camelCase (text : String) : String :=
  match joinWords (Text.runs Text.isAlphanumeric text.toList) with
  | [] => ""
  | c :: rest => String.ofList (if Text.isDigit c then "model".toList ++ c :: rest else c :: rest)

/-- An id as part of a name: `node-4` becomes `node_4`. -/
def ident (text : String) : String :=
  text.map fun c => if Text.isAlphanumeric c || c = '_' then c else '_'

/-- A text literal. What JSON writes is one. -/
def literal (text : String) : String := Json.quote text

end Program

namespace Provider

def className : Provider → String
  | openAi => "OpenAI"
  | anthropic => "Anthropic"
  | gemini => "Gemini"

/-- The package that has the class of a provider. -/
def package : Provider → String
  | openAi => "@llamaindex/openai"
  | anthropic => "@llamaindex/anthropic"
  | gemini => "@llamaindex/google"

def keyConstant : Provider → String
  | openAi => "OPENAI_API_KEY"
  | anthropic => "ANTHROPIC_API_KEY"
  | gemini => "GOOGLE_API_KEY"

end Provider
end EventFlow
