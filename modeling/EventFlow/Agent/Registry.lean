/-
  EventFlow.Agent.Registry — tools of any sort by name.

  What a tool of the sort is called (`name`), what a model is told of it (`describe`) and what a
  call of it comes to (`call`) are given with the sort.
-/

import EventFlow.Services

namespace EventFlow.Registry

variable {τ : Type} (name : τ → String)

/-- A tool put in under a name that is taken replaces the one that has it, in its place. -/
def register : List τ → τ → List τ
  | [], tool => [tool]
  | t :: rest, tool => if name t = name tool then tool :: rest else t :: register rest tool

def get? (tools : List τ) (called : String) : Option τ := tools.find? (name · = called)

def names (tools : List τ) : List String := tools.map name

def definitions (describe : τ → ToolDefinition) (tools : List τ) : List ToolDefinition := tools.map describe

def execute {σ : Type} (call : τ → Service σ Json ToolResult) (tools : List τ) (called : String) :
    Service σ Json ToolResult := fun input s =>
  match get? name tools called with
  | some tool => call tool input s
  | none => (.error (.toolNotFound called), s)

end EventFlow.Registry
