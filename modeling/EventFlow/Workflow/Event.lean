/-
  EventFlow.Workflow.Event — events, the points at which one step hands data to another,
  and the events that a step waits for or sets off.
-/

import EventFlow.Json.Choice

namespace EventFlow

structure Event where
  name : String
  deriving DecidableEq, Inhabited

namespace Event

/-- The event that an edge stands for. -/
def ofEdge (edgeId : String) : Event := ⟨"event-" ++ edgeId⟩

def isIdentChar (c : Char) : Bool := Text.isAlphanumeric c || c = '_' || c = '$'

/-- The name as an identifier. -/
def ident (e : Event) : String :=
  e.name.map fun c => if isIdentChar c then c else '_'

def read : Reader Event := fun v => (Reader.text v).map Event.mk

def toJson (e : Event) : Json := .str e.name

end Event

/-- One event, several, or one for each of the named branches of a decision. -/
inductive Wires where
  | single (event : Event)
  | many (events : List Event)
  | branches (byHandle : Dictionary Event)
  deriving DecidableEq, Inhabited

namespace Wires

/-- The wires for a list of events, if there are any. -/
def ofEvents? : List Event → Option Wires
  | [] => none
  | [e] => some (single e)
  | es => some (many es)

def events : Wires → List Event
  | single e => [e]
  | many es => es
  | branches byHandle => byHandle.values

def contains (w : Wires) (e : Event) : Bool := w.events.contains e

def branch? (w : Wires) (handle : String) : Option Event :=
  match w with
  | branches byHandle => byHandle.get? handle
  | _ => none

/-- `title` is what a fault calls the value. -/
def read (title : String) : Reader Wires :=
  Reader.untagged title
    [ fun v => (Event.read v).map single,
      fun v => (Reader.list Event.read v).map many,
      fun v => (Reader.map Event.read v).map branches ]

def toJson : Wires → Json
  | single e => e.toJson
  | many es => .arr (es.map Event.toJson)
  | branches byHandle => .ofDictionary (byHandle.map Event.toJson)

end Wires
end EventFlow
