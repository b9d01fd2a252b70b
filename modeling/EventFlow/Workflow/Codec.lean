/-
  EventFlow.Workflow.Codec — workflows as JSON.
-/

import EventFlow.Graph.Codec
import EventFlow.Settings.Codec
import EventFlow.Workflow.Basic

namespace EventFlow

namespace Step

/-- A step before its settings are understood. -/
structure Raw where
  id : String
  kind : NodeKind
  data : Json
  accepts : Option Wires
  emits : Option Wires

def shape : Shape Raw where
  title := "RawIrNode"
  slots :=
    [ .of "id" .required Reader.text fun a s => { s with id := a },
      .of "type" .required NodeKind.read fun a s => { s with kind := a },
      .of "data" .defaulted Reader.json fun a s => { s with data := a },
      .of "accepts" .defaulted (Reader.option (Wires.read "Accepts"))
        fun a s => { s with accepts := a },
      .of "emits" .defaulted (Reader.option (Wires.read "Emits"))
        fun a s => { s with emits := a } ]

def read : Reader Step := fun v => do
  let raw ← shape.read ⟨"", .start, .null, none, none⟩ v
  let config ← inNode raw.id (NodeConfig.ofJson raw.kind raw.data)
  return ⟨raw.id, config, raw.accepts, raw.emits⟩

def toJson (s : Step) : Json :=
  .obj ([("id", .str s.id), ("type", s.kind.toJson), ("data", s.config.toJson)] ++
    Json.entry? "accepts" Wires.toJson s.accepts ++ Json.entry? "emits" Wires.toJson s.emits)

end Step

namespace Workflow

def shape : Shape Workflow where
  title := "WorkflowIr"
  slots :=
    [ .of "nodes" .required (Reader.list Step.read) fun a s => { s with steps := a },
      .of "settings" .defaulted Settings.read fun a s => { s with settings := a } ]

def read : Reader Workflow := shape.read { steps := [] }

def toJson (w : Workflow) : Json :=
  .obj [("nodes", .arr (w.steps.map Step.toJson)), ("settings", w.settings.toJson)]

def ofJsonText (text : String) : Result Workflow :=
  (Reader.ofText read text).mapError fun fault => .invalidGraph fault.message

end Workflow
end EventFlow
