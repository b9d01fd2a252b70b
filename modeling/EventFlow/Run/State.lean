/-
  EventFlow.Run.State — how far a run has come.

  A state holds all that is needed to look at a run or to go on with it elsewhere. The
  visits still to make form a stack: what a step sets off is visited before anything that
  was already waiting.
-/

import EventFlow.Workflow.Basic

namespace EventFlow

/-- A step to be carried out, and the event that led to it. -/
structure Visit where
  node : String
  via : Option Event := none
  deriving DecidableEq, Inhabited

/-- The value that each step last recorded, by the step's id. -/
abbrev Outputs := Dictionary Json

namespace Outputs

/-- A value with one more item: nothing becomes a list of the item, and a value that is no
list becomes the first item of one. -/
def extended (old : Option Json) (item : Json) : Json :=
  match old with
  | none => .arr [item]
  | some (.arr items) => .arr (items ++ [item])
  | some v => .arr [v, item]

def append (outputs : Outputs) (id : String) (item : Json) : Outputs :=
  outputs.insert id (extended (outputs.get? id) item)

end Outputs

structure RunState where
  runId : String
  status : RunStatus := .idle
  /-- The step carried out last. -/
  current : Option String := none
  outputs : Outputs := .empty
  error : Option String := none
  /-- The steps carried out, oldest first. -/
  trail : List String := []
  /-- The visits still to make, the next one first. -/
  frontier : List Visit := []
  deriving Inhabited

inductive Outcome where
  | finished
  | awaitingInput (node prompt : String)
  | failed (error : String)
  deriving DecidableEq, Inhabited

inductive RunEvent where
  | runStarted (run : String)
  | nodeEntered (node : String) (kind : NodeKind)
  | nodeCompleted (node : String) (output : Json)
  | awaitingInput (node prompt : String)
  | inputReceived (node : String)
  | runFinished (run : String)
  | runFailed (run error : String)
  deriving Inhabited

end EventFlow
