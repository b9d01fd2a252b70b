/-
  EventFlow.Agent.Input — what an agent is given to work on.

  It is the text of the value that the step before it recorded; if that step recorded
  nothing, of the step before that one, and so on until the steps repeat.
-/

import EventFlow.Services

namespace EventFlow

/-- A text stands for itself, any other value for its JSON. -/
def Json.plainText : Json → String
  | .str s => s
  | v => v.compact

namespace Workflow

/-- The first producer of the events that a step waits for. -/
def firstProducer? (w : Workflow) (s : Step) : Option Step := (w.producersFor s).head?

/-- Follows producers from one that was reached from `current`. `unseen` holds the ids of
the steps not met yet. -/
def nearestText (w : Workflow) (outputs : Outputs) (agent : String) (unseen : List String)
    (current : Step) (producer : Option Step) : Result String :=
  match producer with
  | none => .error (.inputNotFound agent current.id)
  | some p =>
    match outputs.get? p.id with
    | some value => .ok value.plainText
    | none =>
      if p.id ∈ unseen then
        nearestText w outputs agent (unseen.erase p.id) p (w.firstProducer? p)
      else .error (.inputNotFound agent p.id)
termination_by unseen.length
decreasing_by
  next h =>
    have := List.length_erase_of_mem h
    have := List.length_pos_of_mem h
    omega

def stepIds (w : Workflow) : List String := (w.steps.map (·.id)).eraseDups

/-- The input of an agent's step. The event that led to the step tells where to start. -/
def agentInput (w : Workflow) (s : Step) (via : Option Event) (outputs : Outputs) :
    Result String :=
  nearestText w outputs s.id w.stepIds s ((via.bind w.producerOf?) <|> w.firstProducer? s)

end Workflow
end EventFlow
