/-
  EventFlow.Graph.Kind — the kinds of workflow steps.
-/

import EventFlow.Json.Choice

namespace EventFlow

inductive NodeKind where
  | start | stop | userInput | promptLlm | promptAgent | agentTool | splitter | collector
  | decision
  deriving DecidableEq, Inhabited

namespace NodeKind

def all : List NodeKind :=
  [start, stop, userInput, promptLlm, promptAgent, agentTool, splitter, collector, decision]

def name : NodeKind → String
  | start => "start"
  | stop => "stop"
  | userInput => "userInput"
  | promptLlm => "promptLLM"
  | promptAgent => "promptAgent"
  | agentTool => "agentTool"
  | splitter => "splitter"
  | collector => "collector"
  | decision => "decision"

def read : Reader NodeKind := Reader.choice (all.map fun k => (k.name, k))

def toJson (k : NodeKind) : Json := .str k.name

end NodeKind
end EventFlow
