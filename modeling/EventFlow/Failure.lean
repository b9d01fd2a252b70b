/-
  EventFlow.Failure — what can go wrong, and the words for it.
-/

import EventFlow.Json.Choice

namespace EventFlow

inductive RunStatus where
  | idle | running | awaitingInput | finished | failed
  deriving DecidableEq, Inhabited

namespace RunStatus

/-- A run that has ended only starts anew. -/
def isTerminal : RunStatus → Bool
  | finished | failed => true
  | _ => false

def name : RunStatus → String
  | idle => "idle"
  | running => "running"
  | awaitingInput => "pausedForInput"
  | finished => "finished"
  | failed => "error"

def known : List (String × RunStatus) :=
  [idle, running, awaitingInput, finished, failed].map fun s => (s.name, s)

def read : Reader RunStatus := Reader.choice known

end RunStatus

inductive Failure where
  | noStart
  | invalidGraph (reason : String)
  | nodeNotFound (node : String)
  /-- No node before this one has recorded an output that it could take. -/
  | inputNotFound (node producer : String)
  | requestFailed (reason : String)
  | replyUnreadable (reason : String)
  | providerNotSupported (name : String)
  | tooManyTurns (limit : Nat)
  | retrievalFailed (reason : String)
  | toolNotFound (tool : String)
  | toolFailed (tool reason : String)
  | toolInputInvalid (reason : String)
  | unexpectedStatus (expected actual : RunStatus)
  | invalidConfig (reason : String)
  | configNotFound (path : String)
  | fileAccess (reason : String)
  | invalidJson (reason : String)
  deriving DecidableEq, Inhabited

namespace Failure

def message : Failure → String
  | noStart => "No start node found"
  | invalidGraph reason => "Invalid graph: " ++ reason
  | nodeNotFound node => "Node not found: " ++ node
  | inputNotFound node producer =>
    "Input not found for node " ++ node ++ ": " ++ producer ++ " has no recorded output"
  | requestFailed reason => "LLM request failed: " ++ reason
  | replyUnreadable reason => "LLM response parse error: " ++ reason
  | providerNotSupported name => "LLM provider not supported: " ++ name
  | tooManyTurns limit => "Agent exceeded max turns (" ++ toString limit ++ ")"
  | retrievalFailed reason => "Retrieval failed: " ++ reason
  | toolNotFound tool => "Tool not found: " ++ tool
  | toolFailed tool reason => "Tool execution failed: " ++ tool ++ ": " ++ reason
  | toolInputInvalid reason => "Tool input validation failed: " ++ reason
  | unexpectedStatus expected actual =>
    "Unexpected state: expected " ++ expected.name ++ ", found " ++ actual.name
  | invalidConfig reason => "Config error: " ++ reason
  | configNotFound path => "Config file not found: " ++ path
  | fileAccess reason => "I/O error: " ++ reason
  | invalidJson reason => "JSON error: " ++ reason

/-- Whether the failure came from a service outside the program. -/
def isExternal : Failure → Bool
  | requestFailed _ | replyUnreadable _ | providerNotSupported _ | tooManyTurns _
  | retrievalFailed _ | toolNotFound _ | toolFailed .. | toolInputInvalid _ => true
  | _ => false

end Failure

abbrev Result (α : Type) := Except Failure α

/-- Reads a JSON text that stands alone. -/
def Reader.document {α : Type} (read : Reader α) (s : String) : Result α :=
  (Reader.ofText read s).mapError fun fault => .invalidJson fault.message

end EventFlow
