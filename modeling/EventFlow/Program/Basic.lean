/-
  EventFlow.Program.Basic — a generated program, before it is text.

  The program declares constants for models, tools and events, registers a handler for
  each step that has one way on, and drives the workflow: it sends the start event and
  answers requests for input until the stop event arrives.
-/

import EventFlow.Program.Name
import EventFlow.Workflow.Basic

namespace EventFlow

/-- The names that an import brings in, by the package they come from. -/
inductive Import where
  | workflowCore | agent
  | provider (p : Provider)
  | tool | schema | readline
  deriving DecidableEq, Inhabited

namespace Import

def names : Import → List String
  | workflowCore => ["createWorkflow", "workflowEvent"]
  | agent => ["agent"]
  | provider p => [p.className]
  | tool => ["tool"]
  | schema => ["z"]
  | readline => ["createInterface"]

def package : Import → String
  | workflowCore => "@llamaindex/workflow-core"
  | agent => "@llamaindex/workflow"
  | provider p => p.package
  | tool => "llamaindex"
  | schema => "zod"
  | readline => "node:readline/promises"

end Import

structure IndexTool where
  spec : ToolSpec
  index : String
  deriving DecidableEq, Inhabited

namespace IndexTool

def functionName (t : IndexTool) : String := "search_index_func_" ++ Program.ident t.spec.id

def toolName (t : IndexTool) : String := "search_index_" ++ Program.ident t.spec.id

def indexConstant (t : IndexTool) : String := "LLAMACLOUD_INDEX_ID_" ++ Program.ident t.spec.id

def defaultName : String := "searchIndex"

def defaultDescription : String := "Search the index"

/-- The name under which a model calls the tool. -/
def callName (t : IndexTool) : String :=
  let name := Program.camelCase t.spec.name
  if name.isEmpty then defaultName else name

def description (t : IndexTool) : String :=
  if t.spec.description.isEmpty then defaultDescription else t.spec.description

end IndexTool

structure ModelInstance where
  name : String
  provider : Provider
  modelId : String
  temperature : Single
  deriving DecidableEq, Inhabited

inductive Constant where
  /-- Without a value it is taken from the environment. -/
  | retrievalKey (value : Option String)
  | index (tool : IndexTool)
  | providerKey (p : Provider) (value : String)
  /-- `keyed` if the provider's key is declared. -/
  | model (m : ModelInstance) (keyed : Bool)
  deriving DecidableEq, Inhabited

def retrievalKeyConstant : String := "LLAMACLOUD_API_KEY"

def Constant.name : Constant → String
  | retrievalKey _ => retrievalKeyConstant
  | index t => t.indexConstant
  | providerKey p _ => p.keyConstant
  | model m _ => m.name

/-- What a handler does with the data it is called with. -/
inductive Action where
  /-- Hands the data on. -/
  | forward (event : String)
  /-- Asks for input. -/
  | ask (request prompt : String)
  /-- Lets an agent answer. -/
  | consult (model : String) (tools : List String) (systemPrompt : Option String)
      (event : String)
  deriving DecidableEq, Inhabited

/-- The event constant that the handler returns. -/
def Action.result : Action → String
  | forward event => event
  | ask request _ => request
  | consult _ _ _ event => event

structure Handler where
  triggers : List String
  action : Action
  deriving DecidableEq, Inhabited

/-- A branch of the driver: a request for input, and the event that takes the answer. -/
structure Answer where
  request : String
  event : String
  deriving DecidableEq, Inhabited

structure Program where
  imports : List Import
  constants : List Constant
  tools : List IndexTool
  topK : Nat
  events : List String
  handlers : List Handler
  readsInput : Bool
  answers : List Answer
  deriving DecidableEq, Inhabited

namespace Program

def startEvent : String := "startEvent"

def stopEvent : String := "stopEvent"

end Program
end EventFlow
