/-
  EventFlow.Run.Codec — run states and outcomes as JSON.

  The visits still to make are written with the next one last.
-/

import EventFlow.Run.State

namespace EventFlow

namespace Visit

def shape : Shape Visit where
  title := "Visit"
  slots :=
    [ .of "nodeId" .required Reader.text fun a s => { s with node := a },
      .of "via" .defaulted (Reader.option Event.read) fun a s => { s with via := a } ]

def read : Reader Visit := shape.read { node := "" }

def toJson (v : Visit) : Json :=
  .obj ([("nodeId", .str v.node)] ++ Json.entry? "via" Event.toJson v.via)

end Visit

namespace Outputs

def read : Reader Outputs := Reader.map Reader.json

def toJson (outputs : Outputs) : Json := .ofDictionary outputs

end Outputs

namespace RunState

def shape : Shape RunState where
  title := "ExecutionState"
  slots :=
    [ .of "runId" .required Reader.text fun a s => { s with runId := a },
      .of "status" .required RunStatus.read fun a s => { s with status := a },
      .of "currentNodeId" .defaulted (Reader.option Reader.text)
        fun a s => { s with current := a },
      .of "workflowState" .defaulted Outputs.read fun a s => { s with outputs := a },
      .of "error" .defaulted (Reader.option Reader.text) fun a s => { s with error := a },
      .of "trail" .defaulted (Reader.list Reader.text) fun a s => { s with trail := a },
      .of "frontier" .defaulted (Reader.list Visit.read)
        fun a s => { s with frontier := a.reverse } ]

def read : Reader RunState := shape.read { runId := "" }

def toJson (s : RunState) : Json :=
  .obj [("runId", .str s.runId), ("status", .str s.status.name),
    ("currentNodeId", .ofOption .str s.current), ("workflowState", s.outputs.toJson),
    ("error", .ofOption .str s.error), ("trail", .arr (s.trail.map .str)),
    ("frontier", .arr (s.frontier.reverse.map Visit.toJson))]

end RunState

namespace Outcome

def awaitingShape : Shape (String × String) where
  title := "variant RunOutcome::AwaitingInput"
  slots :=
    [ .of "nodeId" .required Reader.text fun a s => (a, s.2),
      .of "prompt" .required Reader.text fun a s => (s.1, a) ]

def failedShape : Shape String :=
  ⟨"variant RunOutcome::Failed", [.of "error" .required Reader.text fun a _ => a]⟩

def read : Reader Outcome :=
  Reader.tagged "RunOutcome" "status" { known := [
      ("finished", Reader.nothing finished),
      ("awaitingInput", fun v =>
        (awaitingShape.read ("", "") v).map fun (node, prompt) => awaitingInput node prompt),
      ("failed", fun v => (failedShape.read "" v).map failed)] }

def toJson : Outcome → Json
  | finished => .obj [("status", .str "finished")]
  | awaitingInput node prompt =>
    .obj [("status", .str "awaitingInput"), ("nodeId", .str node), ("prompt", .str prompt)]
  | failed error => .obj [("status", .str "failed"), ("error", .str error)]

end Outcome
end EventFlow
