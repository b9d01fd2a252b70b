/-
  EventFlow.Run.Step — carrying out one visit.

  A step reads the value that the producer of the event recorded, calls a service if its
  kind asks for one, records its own value, and puts the consumers of its events before
  the visits that were already waiting. A step that fails records nothing.
-/

import EventFlow.Agent.Input

namespace EventFlow

structure Interpreter (σ : Type) where
  workflow : Workflow
  services : Services σ
  /-- The limit for the answers to prompts and decisions. -/
  maxTokens : Nat := defaultMaxTokens

/-- A run in the world: how far it has come, the state of the world, and the events
published so far. -/
structure Session (σ : Type) where
  state : RunState
  world : σ
  events : List RunEvent := []

inductive Turn (σ : Type) where
  | proceed (s : Session σ)
  | pause (s : Session σ) (node prompt : String)
  | fail (s : Session σ) (failure : Failure)

namespace Session

variable {σ : Type}

def publish (s : Session σ) (e : RunEvent) : Session σ := { s with events := s.events ++ [e] }

def withState (s : Session σ) (change : RunState → RunState) : Session σ :=
  { s with state := change s.state }

def enter (s : Session σ) (n : Step) : Session σ :=
  (s.withState fun st => { st with current := some n.id, trail := st.trail ++ [n.id] }).publish
    (.nodeEntered n.id n.kind)

def record (s : Session σ) (id : String) (value : Json) : Session σ :=
  s.withState fun st => { st with outputs := st.outputs.insert id value }

/-- Records the value of a step and tells of it. -/
def complete (s : Session σ) (n : Step) (value : Json) : Session σ :=
  (s.record n.id value).publish (.nodeCompleted n.id value)

/-- The visits that events set off: the consumers of each event, event by event. -/
def visits (w : Workflow) (events : List Event) : List Visit :=
  events.flatMap fun e => (w.consumersOf e).map fun c => ⟨c.id, some e⟩

/-- Puts the visits that events set off before the others. -/
def follow (s : Session σ) (w : Workflow) (events : List Event) : Session σ :=
  s.withState fun st => { st with frontier := visits w events ++ st.frontier }

end Session

/-- The value that fired a visit of a step. -/
def Workflow.inputValue (w : Workflow) (n : Step) (via : Option Event) (outputs : Outputs) :
    Result Json :=
  let producer := match via with
    | some e => w.producerOf? e
    | none => w.firstProducer? n
  match producer with
  | none => .error (.inputNotFound n.id ((via.map (·.name)).getD "-"))
  | some p =>
    match outputs.get? p.id with
    | some value => .ok value
    | none => .error (.inputNotFound n.id p.id)

namespace Decision

def question (question text : String) : String :=
  question ++ "\n\nText: " ++ text ++ "\n\nAnswer with only \"true\" or \"false\"."

def isQuoting (c : Char) : Bool := c = '"' || c = '\'' || c = '.' || c = '`'

/-- The answer read as yes or no: blanks, quotes and full stops around it do not matter,
nor does case. -/
def verdict (answer : String) : Bool :=
  let core := Text.trim (Text.trimBy isQuoting (Text.trim answer.toList))
  "true".toList.isPrefixOf (core.map Text.toLower)

def handle (verdict : Bool) : String := if verdict then "true" else "false"

end Decision

namespace Interpreter

variable {σ : Type}

def model (i : Interpreter σ) (llm model : Option String) (temperature : Option Single) :
    Result ModelConfig :=
  i.workflow.settings.resolveModel llm model temperature i.maxTokens

/-- What a prompt asks. -/
def promptRequest (i : Interpreter σ) (c : PromptLlmConfig) (input : String) :
    Result ChatRequest := do
  return {
    model := ← i.model c.llm c.model c.temperature
    systemPrompt := Text.nonEmpty c.systemPrompt
    message := match Text.nonEmpty c.promptStart with
      | some start => start ++ "\n\n" ++ input
      | none => input }

/-- What a decision asks. -/
def decisionRequest (i : Interpreter σ) (question : Option String) (input : String) :
    Result ChatRequest := do
  return {
    model := ← i.model none none none
    systemPrompt := none
    message := Decision.question (question.getD "") input }

/-- Asks the chat service, unless there is nothing to ask. -/
def ask (i : Interpreter σ) (request : Result ChatRequest) (s : Session σ) :
    Result String × Session σ :=
  match request with
  | .error f => (.error f, s)
  | .ok request =>
    let (reply, world) := i.services.chat request s.world
    (reply, { s with world })

def agentRequest (i : Interpreter σ) (n : Step) (via : Option Event) (s : Session σ) :
    AgentRequest :=
  ⟨i.workflow, n.id, via, s.state.outputs⟩

/-- Carries out a step that has been entered. -/
def perform (i : Interpreter σ) (n : Step) (via : Option Event) (s : Session σ) : Turn σ :=
  let input := i.workflow.inputValue n via s.state.outputs
  match n.config with
  | .start _ => .proceed (s.follow i.workflow n.emitted)
  | .stop _ => .proceed s
  | .userInput c => .pause s n.id c.promptText
  | .promptLlm c =>
    match i.ask (input.bind fun v => i.promptRequest c v.plainText) s with
    | (.error f, s) => .fail s f
    | (.ok reply, s) => .proceed ((s.complete n (.str reply)).follow i.workflow n.emitted)
  | .decision _ question =>
    match input with
    | .error f => .fail s f
    | .ok value =>
      match i.ask (i.decisionRequest question value.plainText) s with
      | (.error f, s) => .fail s f
      | (.ok reply, s) =>
        let branch := n.branch? (Decision.handle (Decision.verdict reply))
        .proceed ((s.complete n value).follow i.workflow branch.toList)
  | .promptAgent _ =>
    let (reply, world) := i.services.agent (i.agentRequest n via s) s.world
    let s := { s with world }
    match reply with
    | .error f => .fail s f
    | .ok reply => .proceed ((s.complete n (.str reply)).follow i.workflow n.emitted)
  | .splitter .. =>
    match input with
    | .error f => .fail s f
    | .ok value => .proceed ((s.complete n value).follow i.workflow n.emitted)
  | .collector .. =>
    match input with
    | .error f => .fail s f
    | .ok value =>
      let collected := Outputs.extended (s.state.outputs.get? n.id) value
      .proceed ((s.complete n collected).follow i.workflow n.emitted)
  | .agentTool _ =>
    .fail s (.invalidGraph ("agent tool " ++ n.id ++ " cannot run outside its agent"))

/-- Makes a visit. -/
def visit (i : Interpreter σ) (v : Visit) (s : Session σ) : Turn σ :=
  match i.workflow.step? v.node with
  | none => .fail s (.nodeNotFound v.node)
  | some n => i.perform n v.via (s.enter n)

end Interpreter
end EventFlow
