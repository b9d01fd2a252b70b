/-
  EventFlow.Proofs.Run.Evaluation — the meaning of a workflow, told by recursion.

  To execute a step is to carry it out and then, for each event that it sets off in turn and for
  each consumer of the event in the order of the workflow, to execute that consumer with all that
  follows from it before the next one. A step that waits for a human takes the next answer; where
  there is none left, everything stops there. A stop ends its own branch only. The first failure
  ends everything.

  A workflow with a circle may go on for ever, so how far steps may lead on to steps is a parameter
  (`depth`); nothing comes of an evaluation that has to go deeper. The answers are given beforehand,
  and what is asked is kept: the prompts by the evaluation, and what the services are asked by
  services that keep a log (`Services.logged`).
-/

import EventFlow.Proofs.Run.Effect

namespace EventFlow

variable {σ : Type}

/-! ## Logs -/

structure Logged (σ : Type) where
  world : σ
  chats : List ChatRequest := []
  agents : List AgentRequest := []

def Services.logged (services : Services σ) : Services (Logged σ) where
  chat request l :=
    let (reply, world) := services.chat request l.world
    (reply, { l with world, chats := l.chats ++ [request] })
  agent request l :=
    let (reply, world) := services.agent request l.world
    (reply, { l with world, agents := l.agents ++ [request] })

def Interpreter.logged (i : Interpreter σ) : Interpreter (Logged σ) := { i with services := i.services.logged }

/-! ## Outcomes -/

namespace Outcome

def status : Outcome → RunStatus
  | finished => .finished
  | awaitingInput .. => .awaitingInput
  | failed _ => .failed

def error? : Outcome → Option String
  | failed error => some error
  | _ => none

end Outcome

/-! ## Evaluation -/

structure Evaluation (σ : Type) where
  outputs : Outputs := .empty
  trail : List String := []
  world : σ
  answers : List String
  prompts : List String := []

/-- What an evaluation comes to, if it comes to anything: an early end or what follows. -/
abbrev Evaluates (σ α : Type) := ExceptT (Outcome × Evaluation σ) Option α

namespace Evaluation

def record (e : Evaluation σ) (id : String) (value : Json) : Evaluation σ :=
  { e with outputs := e.outputs.insert id value }

/-- Carries out one step: an early end, or the events that it sets off. -/
def carryOut (i : Interpreter σ) (n : Step) (via : Option Event) (e : Evaluation σ) :
    Except (Outcome × Evaluation σ) (List Event × Evaluation σ) :=
  let (effect, world) := i.effect n via e.outputs e.world
  let e := { e with trail := e.trail ++ [n.id], world }
  match effect with
  | .pass events => .ok (events, e)
  | .complete value events => .ok (events, e.record n.id value)
  | .fail f => .error (.failed f.message, e)
  | .wait prompt =>
    let e := { e with prompts := e.prompts ++ [prompt] }
    match e.answers with
    | [] => .error (.awaitingInput n.id prompt, e)
    | answer :: answers => .ok (n.emitted, { e with answers }.record n.id (.str answer))

/-- Executes a step and all that follows from it. -/
def execute (i : Interpreter σ) : Nat → Step → Option Event → Evaluation σ → Evaluates σ (Evaluation σ)
  | 0, _, _, _ => ExceptT.mk none
  | depth + 1, n, via, e =>
    match e.carryOut i n via with
    | .error ended => throw ended
    | .ok (events, e) =>
      events.foldlM (fun e v => (i.workflow.consumersOf v).foldlM (fun e c => execute i depth c (some v) e) e) e

def ofWorkflow (i : Interpreter σ) (depth : Nat) (payload : Json) (world : σ) (answers : List String) :
    Option (Outcome × Evaluation σ) :=
  let e : Evaluation σ := { world, answers }
  match i.workflow.startStep? with
  | none => some (.failed Failure.noStart.message, e)
  | some start =>
    match execute i depth start none (if payload.isNull then e else e.record start.id payload) with
    | none => none
    | some (.ok e) => some (.finished, e)
    | some (.error ended) => some ended

end Evaluation
end EventFlow
