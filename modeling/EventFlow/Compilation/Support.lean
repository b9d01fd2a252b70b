/-
  EventFlow.Compilation.Support — what a node sets off, and which nodes keep an input.

  A node that nothing kept sets off is dropped, and with it what only it sets off, until
  every node that is left, a start apart, has an input from a node that is left.
-/

import EventFlow.Compilation.Reach

namespace EventFlow

namespace GraphIndex

/-- The links that carry data on: those from an agent to its tools do not. -/
def dataLinks (ix : GraphIndex) (pos : Nat) : List Link :=
  let out := ix.outgoing pos
  if ix.kind? pos = some .promptAgent then out.filter fun l => !ix.isTool l.target else out

/-- The first link on each of the two branches of a decision. -/
def branches (links : List Link) : Dictionary Event :=
  .ofEntries <| ["true", "false"].filterMap fun handle =>
    (links.find? fun l => l.edge.sourceHandle = some handle).map fun l => (handle, l.event)

/-- The events that a node sets off: a decision one per branch, a splitter all, any other
node the first. -/
def emits (ix : GraphIndex) (pos : Nat) : Option Wires :=
  let links := ix.dataLinks pos
  match ix.kind? pos with
  | none | some .stop | some .agentTool => none
  | some .decision =>
    let found := branches links
    if found.isEmpty then none else some (.branches found)
  | some .splitter => Wires.ofEvents? (links.map Link.event)
  | some _ => links.head?.map fun l => .single l.event

end GraphIndex

/-- A node on its way to becoming a step. -/
structure Draft where
  position : Nat
  node : Node
  emits : Option Wires
  deriving DecidableEq, Inhabited

namespace Draft

def isStart (d : Draft) : Bool := d.node.kind = .start

def emitted (d : Draft) : List Event := (d.emits.map Wires.events).getD []

/-- The events of the node's incoming links that some of the drafts set off. -/
def inputs (ix : GraphIndex) (drafts : List Draft) (d : Draft) : List Event :=
  ((ix.incoming d.position).map Link.event).filter fun e => drafts.any (·.emitted.contains e)

def accepts (ix : GraphIndex) (drafts : List Draft) (d : Draft) : Option Wires :=
  if d.isStart then none else Wires.ofEvents? (inputs ix drafts d)

def isSupported (ix : GraphIndex) (drafts : List Draft) (d : Draft) : Bool :=
  d.isStart || !(inputs ix drafts d).isEmpty

/-- The drafts that the others support. -/
def kept (ix : GraphIndex) (drafts : List Draft) : List Draft :=
  drafts.filter (isSupported ix drafts)

/-- The drafts left when none is without support. -/
def supported (ix : GraphIndex) (drafts : List Draft) : List Draft :=
  if (kept ix drafts).length < drafts.length then supported ix (kept ix drafts) else drafts
termination_by drafts.length

end Draft

def GraphIndex.draft? (ix : GraphIndex) (pos : Nat) : Option Draft :=
  (ix.node? pos).map fun n => ⟨pos, n, ix.emits pos⟩

end EventFlow
