/-
  EventFlow.Graph.Sample — building graphs step by step, and graphs to try things on.
-/

import EventFlow.Graph.Basic
import EventFlow.Settings.Basic

namespace EventFlow

namespace Node

def start (id : String) : Node := ⟨id, .start none⟩

def stop (id : String) : Node := ⟨id, .stop none⟩

def userInput (id prompt : String) : Node := ⟨id, .userInput { prompt := some prompt }⟩

def promptLlm (id : String) (promptStart : Option String) : Node :=
  ⟨id, .promptLlm { promptStart }⟩

def promptAgent (id systemPrompt : String) (model : Option String) : Node :=
  ⟨id, .promptAgent { systemPrompt := some systemPrompt, model }⟩

def indexTool (id label index : String) : Node :=
  ⟨id, .agentTool {
    label := some label
    toolType := some ToolSpec.indexType
    selectedIndex := some index
    description := some ("Search the " ++ label ++ " index") }⟩

def splitter (id : String) : Node := ⟨id, .splitter none none⟩

def collector (id : String) : Node := ⟨id, .collector none none⟩

def decision (id question : String) : Node := ⟨id, .decision none (some question)⟩

end Node

namespace Graph

def add (g : Graph) (n : Node) : Graph := { g with nodes := g.nodes ++ [n] }

def join (g : Graph) (id source target : String) : Graph :=
  { g with edges := g.edges ++ [{ id, source, target }] }

/-- Joins from a named output of the source. -/
def branch (g : Graph) (id source handle target : String) : Graph :=
  { g with edges := g.edges ++ [{ id, source, sourceHandle := some handle, target }] }

end Graph

namespace Sample

def startStop : Graph :=
  ({ nodes := [] } : Graph)
    |>.add (.start "start") |>.add (.stop "stop") |>.join "e1" "start" "stop"

def userInput : Graph :=
  ({ nodes := [.start "1", .userInput "2" "Enter your name:", .stop "3"] } : Graph)
    |>.join "1" "1" "2" |>.join "2" "2" "3"

def decision : Graph :=
  ({ nodes := [
      .start "1", .userInput "2" "How was your day?", .decision "3" "Is the text positive?",
      .promptAgent "4" "Celebrate with the user." none, .stop "5", .stop "6"] } : Graph)
    |>.join "e1" "1" "2" |>.join "e2" "2" "3" |>.branch "e3" "3" "true" "4"
    |>.branch "e4" "3" "false" "6" |>.join "e5" "4" "5"

def agentWithTool : Graph :=
  ({ nodes := [
      .start "1", .userInput "2" "Ask a question:",
      .promptAgent "3" "Answer using the docs." (some "gpt-4.1-mini"),
      .indexTool "4" "Docs Index" "pipe-123", .stop "5"] } : Graph)
    |>.join "e1" "1" "2" |>.join "e2" "2" "3" |>.join "e3" "3" "4" |>.join "e4" "3" "5"

def splitCollect : Graph :=
  ({ nodes := [
      .start "1", .splitter "2", .promptLlm "3" (some "Summarize:"),
      .promptLlm "4" (some "Translate:"), .collector "5", .stop "6"] } : Graph)
    |>.join "e1" "1" "2" |>.join "e2" "2" "3" |>.join "e3" "2" "4" |>.join "e4" "3" "5"
    |>.join "e5" "4" "5" |>.join "e6" "5" "6"

/-- Settings with a key for every service. -/
def settings : Settings where
  retrievalKey := some "llx-test"
  apiKeys := ⟨some "test-key", some "test-anthropic-key", some "test-google-key"⟩

end Sample
end EventFlow
