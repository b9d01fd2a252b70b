/-
  EventFlow.Workflow.Basic — a compiled workflow: a flat list of steps, each with the
  events it waits for and the events it sets off.
-/

import EventFlow.Graph.Config
import EventFlow.Settings.Basic
import EventFlow.Workflow.Event

namespace EventFlow

structure Step where
  id : String
  config : NodeConfig
  accepts : Option Wires := none
  emits : Option Wires := none
  deriving DecidableEq, Inhabited

namespace Step

def kind (s : Step) : NodeKind := s.config.kind

def accepted (s : Step) : List Event := (s.accepts.map Wires.events).getD []

def emitted (s : Step) : List Event := (s.emits.map Wires.events).getD []

def acceptsEvent (s : Step) (e : Event) : Bool := s.accepted.contains e

def emitsEvent (s : Step) (e : Event) : Bool := s.emitted.contains e

/-- The event set off, if there is one way on. -/
def singleEmit? (s : Step) : Option Event :=
  match s.emits with
  | some (.single e) => some e
  | _ => none

def branch? (s : Step) (handle : String) : Option Event := s.emits.bind (·.branch? handle)

end Step

structure Workflow where
  steps : List Step
  settings : Settings := {}
  deriving DecidableEq, Inhabited

namespace Workflow

def step? (w : Workflow) (id : String) : Option Step := w.steps.find? (·.id = id)

def startStep? (w : Workflow) : Option Step := w.steps.find? (·.kind = .start)

/-- The first step that sets off the event. -/
def producerOf? (w : Workflow) (e : Event) : Option Step := w.steps.find? (·.emitsEvent e)

def consumersOf (w : Workflow) (e : Event) : List Step := w.steps.filter (·.acceptsEvent e)

/-- The producers of the events that a step waits for, in the order of the events. -/
def producersFor (w : Workflow) (s : Step) : List Step := s.accepted.filterMap w.producerOf?

end Workflow
end EventFlow
