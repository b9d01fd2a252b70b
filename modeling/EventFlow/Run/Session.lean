/-
  EventFlow.Run.Session — starting a run, answering it, and going on until it stops.

  A run stops when no visit is left, when a step waits for a human, or when a step fails.
  A workflow with a circle may never stop, so how many visits are made at most is a
  parameter (`fuel`); nothing comes of a run that needs more.
-/

import EventFlow.Run.Step

namespace EventFlow

namespace Session

variable {σ : Type}

/-- Ends the run with a failure. -/
def failWith (s : Session σ) (f : Failure) : Outcome × Session σ :=
  (.failed f.message,
    (s.withState fun st => { st with status := .failed, error := some f.message }).publish
      (.runFailed s.state.runId f.message))

def finish (s : Session σ) : Outcome × Session σ :=
  (.finished,
    (s.withState fun st => { st with status := .finished }).publish (.runFinished s.state.runId))

def pauseAt (s : Session σ) (node prompt : String) : Outcome × Session σ :=
  (.awaitingInput node prompt,
    (s.withState fun st => { st with status := .awaitingInput, current := some node }).publish
      (.awaitingInput node prompt))

/-- Discards the run; the next one has a new id. -/
def restart (s : Session σ) (runId : String) : Session σ := { s with state := { runId } }

end Session

namespace Interpreter

variable {σ : Type}

/-- Makes visits until the run stops. -/
def advance (i : Interpreter σ) : Nat → Session σ → Option (Outcome × Session σ)
  | 0, _ => none
  | fuel + 1, s =>
    match s.state.frontier with
    | [] => some s.finish
    | v :: rest =>
      match i.visit v (s.withState fun st => { st with frontier := rest }) with
      | .proceed s => advance i fuel s
      | .pause s node prompt => some (s.pauseAt node prompt)
      | .fail s f => some (s.failWith f)

/-- What an operation on a run gives: nothing if it needs more fuel, else an outcome or
the reason why the operation is not allowed. -/
abbrev Reply (σ α : Type) := Option (Result α × Session σ)

def toReply (r : Option (Outcome × Session σ)) : Reply σ Outcome :=
  r.map fun (outcome, s) => (.ok outcome, s)

def expected (expected : RunStatus) (s : Session σ) : Failure :=
  .unexpectedStatus expected s.state.status

/-- Starts a run. A payload becomes the value of the start. -/
def run (i : Interpreter σ) (fuel : Nat) (payload : Json) (s : Session σ) : Reply σ Outcome :=
  if s.state.status ≠ .idle then some (.error (expected .idle s), s)
  else
    let s := (s.withState fun st => { st with status := .running }).publish
      (.runStarted s.state.runId)
    match i.workflow.startStep? with
    | none => toReply (some (s.failWith .noStart))
    | some start =>
      let s := if payload.isNull then s else s.record start.id payload
      toReply (i.advance fuel (s.withState fun st =>
        { st with frontier := { node := start.id } :: st.frontier }))

/-- Answers the step that waits, and goes on. -/
def submit (i : Interpreter σ) (fuel : Nat) (answer : String) (s : Session σ) :
    Reply σ Outcome :=
  if s.state.status ≠ .awaitingInput then some (.error (expected .awaitingInput s), s)
  else
    match s.state.current with
    | none => toReply (some (s.failWith (.invalidGraph "paused without a current node")))
    | some id =>
      match i.workflow.step? id with
      | none => toReply (some (s.failWith (.nodeNotFound id)))
      | some n =>
        let s := ((s.record id (.str answer)).withState fun st =>
          { st with status := .running }).publish (.inputReceived id)
        toReply (i.advance fuel (s.follow i.workflow n.emitted))

/-- The question of a step, if it has one. -/
def promptOf (w : Workflow) (id : String) : String :=
  match w.step? id with
  | some ⟨_, .userInput c, _, _⟩ => c.promptText
  | _ => ""

/-- The outcome that a state stands for, if it stands for one. -/
def outcome? (i : Interpreter σ) (st : RunState) : Option Outcome :=
  match st.status with
  | .idle | .running => none
  | .finished => some .finished
  | .failed => some (.failed (st.error.getD ""))
  | .awaitingInput => st.current.map fun id => .awaitingInput id (promptOf i.workflow id)

/-- A session and those who answer its questions. -/
abbrev Driven (σ τ : Type) := Option (Result Outcome × Session σ × τ)

/-- Answers every question until the run ends. -/
def answerAll {τ : Type} (i : Interpreter σ) (input : InputChannel τ) (fuel : Nat) :
    Nat → Outcome → Session σ → τ → Driven σ τ
  | 0, _, _, _ => none
  | rounds + 1, .awaitingInput _ prompt, s, t =>
    match input prompt t with
    | (.error f, t) => some (.error f, s, t)
    | (.ok answer, t) =>
      match i.submit fuel answer s with
      | none => none
      | some (.error f, s) => some (.error f, s, t)
      | some (.ok outcome, s) => answerAll i input fuel rounds outcome s t
  | _ + 1, outcome, s, t => some (.ok outcome, s, t)

/-- Runs to the end, asking for input at every pause. -/
def drive {τ : Type} (i : Interpreter σ) (input : InputChannel τ) (fuel : Nat) (s : Session σ)
    (t : τ) : Driven σ τ :=
  match i.outcome? s.state with
  | some outcome => answerAll i input fuel fuel outcome s t
  | none =>
    match i.run fuel .null s with
    | none => none
    | some (.error f, s) => some (.error f, s, t)
    | some (.ok outcome, s) => answerAll i input fuel fuel outcome s t

end Interpreter
end EventFlow
