/-
  EventFlow.Graph.Config — what a node is set up to do, by its kind.
-/

import EventFlow.Workflow.Tool

namespace EventFlow

structure UserInputConfig where
  label : Option String := none
  prompt : Option String := none
  placeholder : Option String := none
  deriving DecidableEq, Inhabited

namespace UserInputConfig

def defaultPrompt : String := "Enter your input:"

/-- The question shown to the human: the prompt, without one the placeholder; if what is
found is empty, the usual question. -/
def promptText (c : UserInputConfig) : String :=
  (Text.nonEmpty (c.prompt <|> c.placeholder)).getD defaultPrompt

end UserInputConfig

structure PromptLlmConfig where
  label : Option String := none
  llm : Option String := none
  model : Option String := none
  temperature : Option Single := none
  promptStart : Option String := none
  systemPrompt : Option String := none
  deriving DecidableEq, Inhabited

structure PromptAgentConfig where
  label : Option String := none
  agentType : Option String := none
  systemPrompt : Option String := none
  llm : Option String := none
  model : Option String := none
  temperature : Option Single := none
  /-- Filled in by compilation. -/
  tools : List ToolSpec := []
  deriving DecidableEq, Inhabited

structure AgentToolConfig where
  label : Option String := none
  toolType : Option String := none
  config : Option String := none
  name : Option String := none
  description : Option String := none
  selectedIndex : Option String := none
  deriving DecidableEq, Inhabited

inductive NodeConfig where
  | start (label : Option String)
  | stop (label : Option String)
  | userInput (config : UserInputConfig)
  | promptLlm (config : PromptLlmConfig)
  | promptAgent (config : PromptAgentConfig)
  | agentTool (config : AgentToolConfig)
  | splitter (label splitType : Option String)
  | collector (label mergeType : Option String)
  | decision (label question : Option String)
  deriving DecidableEq, Inhabited

namespace NodeConfig

def kind : NodeConfig → NodeKind
  | start _ => .start
  | stop _ => .stop
  | userInput _ => .userInput
  | promptLlm _ => .promptLlm
  | promptAgent _ => .promptAgent
  | agentTool _ => .agentTool
  | splitter .. => .splitter
  | collector .. => .collector
  | decision .. => .decision

def label : NodeConfig → Option String
  | start label | stop label => label
  | userInput c => c.label
  | promptLlm c => c.label
  | promptAgent c => c.label
  | agentTool c => c.label
  | splitter label _ | collector label _ | decision label _ => label

end NodeConfig
end EventFlow
