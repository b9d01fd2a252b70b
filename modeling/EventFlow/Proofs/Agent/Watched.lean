/-
  EventFlow.Proofs.Agent.Watched — an agent whose services are watched.

  To tell what an agent asks, and in which order, its model service is put into a wider world that
  also holds a log (`watched`), and all other services leave the log alone (`aside`). Nothing else
  changes: the reply and the world are those of the agent that is not watched (`run_withModel`).
-/

import EventFlow.Agent
import EventFlow.Proofs.Workflow.Lookup

namespace EventFlow

variable {σ τ ρ α : Type}

/-- A service that keeps what it was asked and what it replied, oldest first. -/
def watched (serve : ρ → σ → α × σ) : ρ → σ × List (ρ × α) → α × (σ × List (ρ × α)) := fun request (s, log) =>
  ((serve request s).1, ((serve request s).2, log ++ [(request, (serve request s).1)]))

/-- A service that leaves alone what stands beside its world. -/
def aside (serve : ρ → σ → α × σ) : ρ → σ × τ → α × (σ × τ) := fun request (s, t) =>
  ((serve request s).1, ((serve request s).2, t))

/-- A service in a wider world does what another one does in its own. -/
def Extends (wide : ρ → σ × τ → α × (σ × τ)) (serve : ρ → σ → α × σ) : Prop :=
  ∀ request s t, (wide request (s, t)).1 = (serve request s).1 ∧ (wide request (s, t)).2.1 = (serve request s).2

theorem extends_watched (serve : ρ → σ → α × σ) : Extends (watched serve) serve := fun _ _ _ => ⟨rfl, rfl⟩

/-! ## Services that leave the log alone -/

theorem Call.send_aside (call : Call) (net : Network σ) (s : σ) (t : τ) :
    call.send (aside net) (s, t) = ((call.send net s).1, ((call.send net s).2, t)) := by
  unfold send
  cases call.request? with
  | error reason => rfl
  | ok request =>
    simp only [aside]
    generalize net request s = reply
    obtain ⟨reply | response, s⟩ := reply <;> rfl

namespace RetrievalClient

variable (c : RetrievalClient) (net : Network σ)

theorem fetch_aside (request : Call) (read : Reader α) (s : σ) (t : τ) :
    fetch request read (aside net) (s, t) =
      ((fetch request read net s).1, ((fetch request read net s).2, t)) := by
  unfold fetch
  rw [Call.send_aside]
  generalize request.send net s = reply
  obtain ⟨reply | response, s⟩ := reply <;> rfl

theorem project_aside (s : σ) (t : τ) :
    c.project (aside net) (s, t) = ((c.project net s).1, ((c.project net s).2, t)) := by
  unfold project
  rw [fetch_aside]
  generalize fetch _ _ net s = reply
  obtain ⟨reply | found, s⟩ := reply <;> rfl

theorem retrieve_aside : c.retrieve (aside (τ := τ) net) = aside (c.retrieve net) := by
  funext ⟨index, query⟩ ⟨s, t⟩
  rw [aside, retrieve, retrieve]
  simp only [project_aside]
  generalize c.project net s = reply
  obtain ⟨reply | p, s⟩ := reply
  · rfl
  · simp only [Call.send_aside]
    generalize (c.searchCall p index query).send net s = reply
    obtain ⟨reply | response, s⟩ := reply <;> rfl

end RetrievalClient

theorem Toolbox.execute_aside (tools : Toolbox) (retrieve : RetrievalService σ) (name : String) (input : Json) (s : σ)
    (t : τ) : tools.execute (aside retrieve) name input (s, t) =
      ((tools.execute retrieve name input s).1, ((tools.execute retrieve name input s).2, t)) := by
  unfold execute Registry.execute
  cases Registry.get? SearchTool.name tools name with
  | none => rfl
  | some tool =>
    simp only [SearchTool.execute]
    cases SearchTool.readInput input with
    | error f => rfl
    | ok query =>
      simp only [aside]
      generalize retrieve (tool.index, query) s = reply
      obtain ⟨reply | passages, s⟩ := reply <;> rfl

namespace AgentRuntime

variable {m : ModelService (σ × τ)}

/-- The agent in a wider world, with another model service; its other services leave alone what the
    world holds in addition. -/
def withModel (r : AgentRuntime σ) (m : ModelService (σ × τ)) : AgentRuntime (σ × τ) where
  limits := r.limits
  site := r.site
  model := m
  retrieval := r.retrieval.map aside
  network := aside r.network

theorem callTools_aside (tools : Toolbox) (retrieve : RetrievalService σ) (calls : List ToolCall) (s : σ) (t : τ) :
    callTools tools (aside retrieve) calls (s, t) =
      ((callTools tools retrieve calls s).1, ((callTools tools retrieve calls s).2, t)) := by
  induction calls generalizing s with
  | nil => rfl
  | cons call rest ih =>
    simp only [callTools, Toolbox.execute_aside, ih]

theorem retrievalFor_withModel (r : AgentRuntime σ) (m : ModelService (σ × τ)) (settings : Settings) :
    (r.withModel m).retrievalFor settings = (r.retrievalFor settings).map aside := by
  obtain ⟨limits, site, model, retrieval, network⟩ := r
  cases retrieval with
  | some service => rfl
  | none =>
    rw [retrievalFor, retrievalFor]
    simp only [withModel, Option.map_none, Option.map_map, Function.comp_def, RetrievalClient.retrieve_aside]

/-! ## The conversation of an agent -/

/-- The tools that an agent is given and the service that they search: none without a service. -/
def equipment (r : AgentRuntime σ) (settings : Settings) (config : PromptAgentConfig) : Toolbox × RetrievalService σ :=
  match r.retrievalFor settings with
  | some service => (Toolbox.ofSpecs config.tools, service)
  | none => ([], noRetrieval)

theorem equipment_withModel (r : AgentRuntime σ) (m : ModelService (σ × τ)) (settings : Settings)
    (config : PromptAgentConfig) : (r.withModel m).equipment settings config =
      ((r.equipment settings config).1, aside (r.equipment settings config).2) := by
  unfold equipment
  rw [retrievalFor_withModel]
  cases r.retrievalFor settings <;> rfl

structure Opens (r : AgentRuntime σ) (request : AgentRequest) (config : PromptAgentConfig) (input : String)
    (model : ModelConfig) : Prop where
  agent : ∃ n, request.workflow.step? request.node = some n ∧ n.config = .promptAgent config ∧
    request.workflow.agentInput n request.via request.outputs = .ok input
  model : request.workflow.settings.resolveModel config.llm config.model config.temperature r.limits.maxTokens =
    .ok model

variable {r : AgentRuntime σ} {request : AgentRequest} {config : PromptAgentConfig} {input : String}
  {model : ModelConfig}

theorem Opens.withModel (opens : r.Opens request config input model) (m : ModelService (σ × τ)) :
    (r.withModel m).Opens request config input model := ⟨opens.agent, opens.model⟩

theorem run_eq (opens : r.Opens request config input model) (s : σ) :
    r.run request s = r.converse model (r.equipment request.workflow.settings config).1
      (r.equipment request.workflow.settings config).2 r.limits.maxTurns (opening config input) s := by
  obtain ⟨⟨⟨id, kind, accepts, emits⟩, step, rfl, resolved⟩, usable⟩ := opens
  unfold run
  simp only [step, resolved, usable]
  rfl

/-- Either an agent's step starts a conversation, or it fails at once, whatever its services. -/
theorem opens_or_fails (r : AgentRuntime σ) (request : AgentRequest) :
    (∃ config input model, r.Opens request config input model) ∨
      ∃ f, ∀ (υ : Type) (r' : AgentRuntime υ), r'.limits = r.limits → ∀ s, r'.run request s = (.error f, s) := by
  unfold run
  cases step : request.workflow.step? request.node with
  | none => exact .inr ⟨_, fun _ _ _ _ => rfl⟩
  | some n =>
    obtain ⟨id, config, accepts, emits⟩ := n
    cases config with
    | promptAgent config =>
      simp only
      cases resolved : request.workflow.agentInput ⟨id, .promptAgent config, accepts, emits⟩ request.via
          request.outputs with
      | error f => exact .inr ⟨f, fun _ _ _ _ => rfl⟩
      | ok input =>
        cases usable : request.workflow.settings.resolveModel config.llm config.model config.temperature
            r.limits.maxTokens with
        | error f => exact .inr ⟨f, fun _ r' limits s => by simp only [limits, usable]⟩
        | ok model => exact .inl ⟨config, input, model, ⟨_, step, rfl, resolved⟩, usable⟩
    | _ => exact .inr ⟨_, fun _ _ _ _ => rfl⟩

/-- A conversation in a wider world is the same conversation. -/
theorem converse_withModel (h : Extends m r.model) (model : ModelConfig) (tools : Toolbox)
    (retrieve : RetrievalService σ) (turns : Nat) (messages : List Message) (s : σ) (t : τ) :
    ((r.withModel m).converse model tools (aside retrieve) turns messages (s, t)).1 =
        (r.converse model tools retrieve turns messages s).1 ∧
      ((r.withModel m).converse model tools (aside retrieve) turns messages (s, t)).2.1 =
        (r.converse model tools retrieve turns messages s).2 := by
  induction turns generalizing messages s t with
  | zero => exact ⟨rfl, rfl⟩
  | succ turns ih =>
    obtain ⟨reply, world⟩ := h ⟨model, messages, tools.definitions⟩ s t
    simp only [converse, withModel]
    generalize m _ (s, t) = x at reply world
    generalize r.model _ s = y at reply world
    obtain ⟨x, s, t⟩ := x
    obtain ⟨y, s'⟩ := y
    obtain rfl : x = y := reply
    obtain rfl : s = s' := world
    cases x with
    | error f => exact ⟨rfl, rfl⟩
    | ok completion =>
      simp only [callTools_aside]
      split
      · exact ⟨rfl, rfl⟩
      · exact ih _ _ _

/-- An agent in a wider world replies as it does in its own, and leaves its own as it does. -/
theorem run_withModel (h : Extends m r.model) (request : AgentRequest) (s : σ) (t : τ) :
    ((r.withModel m).run request (s, t)).1 = (r.run request s).1 ∧
      ((r.withModel m).run request (s, t)).2.1 = (r.run request s).2 := by
  rcases r.opens_or_fails request with ⟨config, input, model, opens⟩ | ⟨f, fails⟩
  · rw [run_eq opens, run_eq (opens.withModel m), equipment_withModel]
    exact converse_withModel h _ _ _ _ _ s t
  · rw [fails _ r rfl, fails _ (r.withModel m) rfl]
    exact ⟨rfl, rfl⟩

end AgentRuntime
end EventFlow
