/-
  EventFlow.Proofs.Run.Effect — what carrying out a step comes to.

  A visit enters its step and then does one of four things (`Effect`): it passes events on, waits
  for a human, records a value and sets events off, or fails. Which one it is depends only on the
  step, the event that led to it, the values recorded so far and the world (`effect`).

  Proved:
  - `perform_eq` / `advance_visit`: a visit does what the effect says and nothing else.
  - `pass_cases` / `sublist_emitted_of_complete`: only events of the step are set off.
  - `fail_cases`: the five things that a failure can come from.
-/

import EventFlow.Proofs.Workflow.Lookup
import EventFlow.Run.Session

namespace EventFlow

inductive Effect where
  | pass (events : List Event)
  | wait (prompt : String)
  | complete (value : Json) (events : List Event)
  | fail (failure : Failure)

namespace Interpreter

variable {σ : Type}

def consult (i : Interpreter σ) (request : Result ChatRequest) (world : σ) : Result String × σ :=
  match request with
  | .error f => (.error f, world)
  | .ok request => i.services.chat request world

/-- What a step does, and the world afterwards. -/
def effect (i : Interpreter σ) (n : Step) (via : Option Event) (outputs : Outputs) (world : σ) : Effect × σ :=
  let input := i.workflow.inputValue n via outputs
  match n.config with
  | .start _ => (.pass n.emitted, world)
  | .stop _ => (.pass [], world)
  | .userInput c => (.wait c.promptText, world)
  | .promptLlm c =>
    match i.consult (input.bind fun v => i.promptRequest c v.plainText) world with
    | (.error f, world) => (.fail f, world)
    | (.ok text, world) => (.complete (.str text) n.emitted, world)
  | .decision _ question =>
    match input with
    | .error f => (.fail f, world)
    | .ok value =>
      match i.consult (i.decisionRequest question value.plainText) world with
      | (.error f, world) => (.fail f, world)
      | (.ok text, world) =>
        (.complete value (n.branch? (Decision.handle (Decision.verdict text))).toList, world)
  | .promptAgent _ =>
    match i.services.agent ⟨i.workflow, n.id, via, outputs⟩ world with
    | (.error f, world) => (.fail f, world)
    | (.ok text, world) => (.complete (.str text) n.emitted, world)
  | .splitter .. =>
    match input with
    | .error f => (.fail f, world)
    | .ok value => (.complete value n.emitted, world)
  | .collector .. =>
    match input with
    | .error f => (.fail f, world)
    | .ok value => (.complete (Outputs.extended (outputs.get? n.id) value) n.emitted, world)
  | .agentTool _ => (.fail (.invalidGraph ("agent tool " ++ n.id ++ " cannot run outside its agent")), world)

/-- Where an effect leaves a session that has entered the step. -/
def turn (i : Interpreter σ) (n : Step) (s : Session σ) : Effect → Turn σ
  | .pass events => .proceed (s.follow i.workflow events)
  | .wait prompt => .pause s n.id prompt
  | .complete value events => .proceed ((s.complete n value).follow i.workflow events)
  | .fail f => .fail s f

theorem ask_eq (i : Interpreter σ) (request : Result ChatRequest) (s : Session σ) :
    i.ask request s = ((i.consult request s.world).1, { s with world := (i.consult request s.world).2 }) := by
  cases request <;> rfl

theorem perform_eq (i : Interpreter σ) (n : Step) (via : Option Event) (s : Session σ) :
    i.perform n via s = i.turn n { s with world := (i.effect n via s.state.outputs s.world).2 }
      (i.effect n via s.state.outputs s.world).1 := by
  unfold perform effect
  cases n.config with
  | start _ => rfl
  | stop _ => rfl
  | userInput _ => rfl
  | agentTool _ => rfl
  | promptLlm c =>
    simp only [ask_eq]
    generalize i.consult _ s.world = reply
    obtain ⟨reply | reply, world⟩ := reply <;> rfl
  | promptAgent c =>
    unfold agentRequest
    generalize i.services.agent _ s.world = reply
    obtain ⟨reply | reply, world⟩ := reply <;> rfl
  | splitter _ _ => cases i.workflow.inputValue n via s.state.outputs <;> rfl
  | collector _ _ => cases i.workflow.inputValue n via s.state.outputs <;> rfl
  | decision _ question =>
    cases i.workflow.inputValue n via s.state.outputs with
    | error f => rfl
    | ok value =>
      simp only [ask_eq]
      generalize i.consult _ s.world = reply
      obtain ⟨reply | reply, world⟩ := reply <;> rfl

end Interpreter

/-- The session in which a visit has been taken from the front of the others and its step has
    been entered, with the world as the step's effect leaves it. -/
def Session.entered {σ : Type} (s : Session σ) (rest : List Visit) (n : Step) (world : σ) : Session σ :=
  { (s.withState fun st => { st with frontier := rest }).enter n with world }

namespace Interpreter

variable {σ : Type} {i : Interpreter σ} {s : Session σ}

structure Visits (i : Interpreter σ) (s : Session σ) (v : Visit) (rest : List Visit) (n : Step) (e : Effect)
    (world : σ) : Prop where
  next : s.state.frontier = v :: rest
  step : i.workflow.step? v.node = some n
  effect : i.effect n v.via s.state.outputs s.world = (e, world)

/-- No visit is left, the next one leads to no step, or it is known what it comes to. -/
theorem next_cases (i : Interpreter σ) (s : Session σ) :
    s.state.frontier = [] ∨
    (∃ v rest, s.state.frontier = v :: rest ∧ i.workflow.step? v.node = none) ∨
    ∃ v rest n e world, i.Visits s v rest n e world := by
  cases next : s.state.frontier with
  | nil => exact Or.inl rfl
  | cons v rest =>
    cases step : i.workflow.step? v.node with
    | none => exact Or.inr (Or.inl ⟨v, rest, rfl, step⟩)
    | some n => exact Or.inr (Or.inr ⟨v, rest, n, _, _, next, step, rfl⟩)

variable {v : Visit} {rest : List Visit} {n : Step} {e : Effect} {world : σ}

theorem visit_eq (h : i.Visits s v rest n e world) :
    i.visit v (s.withState fun st => { st with frontier := rest }) = i.turn n (s.entered rest n world) e := by
  rw [visit]
  simp only [h.step]
  rw [perform_eq]
  have heffect : i.effect n v.via ((s.withState fun st => { st with frontier := rest }).enter n).state.outputs
      ((s.withState fun st => { st with frontier := rest }).enter n).world = (e, world) := h.effect
  rw [heffect]
  rfl

theorem advance_visit (h : i.Visits s v rest n e world) (fuel : Nat) :
    i.advance (fuel + 1) s =
      match i.turn n (s.entered rest n world) e with
      | .proceed s => i.advance fuel s
      | .pause s node prompt => some (s.pauseAt node prompt)
      | .fail s f => some (s.failWith f) := by
  have turn := visit_eq h
  rw [advance]
  simp only [h.next]
  revert turn
  generalize i.visit v _ = turn
  rintro rfl
  rfl

theorem advance_proceed (h : i.Visits s v rest n e world) {t : Session σ}
    (turn : i.turn n (s.entered rest n world) e = .proceed t) (fuel : Nat) :
    i.advance (fuel + 1) s = i.advance fuel t := by
  rw [advance_visit h, turn]

theorem advance_wait {prompt : String} (h : i.Visits s v rest n (.wait prompt) world) (fuel : Nat) :
    i.advance (fuel + 1) s = some ((s.entered rest n world).pauseAt n.id prompt) := by
  rw [advance_visit h]
  simp only [turn]

theorem advance_fail {f : Failure} (h : i.Visits s v rest n (.fail f) world) (fuel : Nat) :
    i.advance (fuel + 1) s = some ((s.entered rest n world).failWith f) := by
  rw [advance_visit h]
  simp only [turn]

theorem advance_unknown (next : s.state.frontier = v :: rest)
    (step : i.workflow.step? v.node = none) (fuel : Nat) :
    i.advance (fuel + 1) s =
      some ((s.withState fun st => { st with frontier := rest }).failWith (.nodeNotFound v.node)) := by
  rw [advance]
  simp only [next, visit, step]

theorem advance_nil (next : s.state.frontier = []) (fuel : Nat) : i.advance (fuel + 1) s = some s.finish := by
  rw [advance]
  simp only [next]

/-! ## What an effect can be -/

variable {via : Option Event} {outputs : Outputs} {world' : σ}

theorem effect_start (hkind : n.kind = .start) : i.effect n via outputs world = (.pass n.emitted, world) := by
  unfold Step.kind at hkind
  unfold effect
  cases hc : n.config with
  | start _ => rfl
  | _ => rw [hc] at hkind; cases hkind

theorem effect_userInput (hkind : n.kind = .userInput) :
    ∃ prompt, i.effect n via outputs world = (.wait prompt, world) := by
  unfold Step.kind at hkind
  unfold effect
  cases hc : n.config with
  | userInput c => exact ⟨c.promptText, rfl⟩
  | _ => rw [hc] at hkind; cases hkind

/-- Only a start passes events on without a value of its own; a stop passes none on. -/
theorem pass_cases {events : List Event} (h : i.effect n via outputs world = (.pass events, world')) :
    world' = world ∧ (n.kind = .start ∧ events = n.emitted ∨ n.kind = .stop ∧ events = []) := by
  unfold effect at h
  unfold Step.kind
  cases hc : n.config <;> simp only [hc] at h <;> repeat' split at h
  all_goals first
    | cases h; done
    | obtain ⟨⟨⟩, rfl⟩ := Prod.mk.inj h; exact ⟨rfl, by simp [NodeConfig.kind]⟩

theorem wait_cases {prompt : String} (h : i.effect n via outputs world = (.wait prompt, world')) :
    world' = world ∧ ∃ c, n.config = .userInput c ∧ prompt = c.promptText := by
  unfold effect at h
  cases hc : n.config <;> simp only [hc] at h <;> repeat' split at h
  all_goals first
    | cases h; done
    | obtain ⟨⟨⟩, rfl⟩ := Prod.mk.inj h; exact ⟨rfl, _, rfl, rfl⟩

/-- A step that records a value sets off events of its own: all of them, or the one of a branch. -/
theorem sublist_emitted_of_complete {value : Json} {events : List Event}
    (h : i.effect n via outputs world = (.complete value events, world')) : events.Sublist n.emitted := by
  unfold effect at h
  cases hc : n.config <;> simp only [hc] at h <;> repeat' split at h
  all_goals first
    | cases h; done
    | obtain ⟨⟨⟩, rfl⟩ := Prod.mk.inj h; exact List.Sublist.refl _
    | obtain ⟨⟨⟩, rfl⟩ := Prod.mk.inj h; exact Step.branch?_toList_sublist _ _

theorem mem_emitted_of_complete {value : Json} {events : List Event}
    (h : i.effect n via outputs world = (.complete value events, world')) : ∀ e ∈ events, e ∈ n.emitted :=
  fun _ he => (sublist_emitted_of_complete h).subset he

theorem consult_error {request : Result ChatRequest} {f : Failure} (h : i.consult request world = (.error f, world')) :
    request = .error f ∧ world' = world ∨
      ∃ asked, request = .ok asked ∧ i.services.chat asked world = (.error f, world') := by
  cases request with
  | error g => obtain ⟨⟨⟩, rfl⟩ := Prod.mk.inj h; exact Or.inl ⟨rfl, rfl⟩
  | ok asked => exact Or.inr ⟨asked, rfl, h⟩

/-- The model that a prompt names; a decision takes the usual one, and other steps none. -/
def modelOf (i : Interpreter σ) (n : Step) : Option (Result ModelConfig) :=
  match n.config with
  | .promptLlm c => some (i.model c.llm c.model c.temperature)
  | .decision .. => some (i.model none none none)
  | _ => none

def question (i : Interpreter σ) (n : Step) (value : Json) : Option (Result ChatRequest) :=
  match n.config with
  | .promptLlm c => some (i.promptRequest c value.plainText)
  | .decision _ question => some (i.decisionRequest question value.plainText)
  | _ => none

theorem error_of_bind_pure {α β : Type} {x : Result α} {g : α → β} {f : Failure}
    (h : (x >>= fun a => pure (g a)) = .error f) : x = .error f := by
  cases x with
  | error g => exact congrArg Except.error (Except.error.inj h)
  | ok a => cases h

/-- A question cannot be put only if no provider has the name of the model. -/
theorem question_error {value : Json} {f : Failure} (h : i.question n value = some (.error f)) :
    i.modelOf n = some (.error f) := by
  unfold question at h
  split at h
  case h_1 c hc =>
    have h := error_of_bind_pure (Option.some.inj h)
    rw [modelOf, hc]
    exact congrArg some h
  case h_2 label question hc =>
    have h := error_of_bind_pure (Option.some.inj h)
    rw [modelOf, hc]
    exact congrArg some h
  case h_3 => cases h

/-- A step fails because the chat service does, because the agent service does, because no
    provider has the name of its model, because it finds no value to read, or because it is a tool. -/
theorem fail_cases {f : Failure} (h : i.effect n via outputs world = (.fail f, world')) :
    (∃ value request, i.workflow.inputValue n via outputs = .ok value ∧ i.question n value = some (.ok request) ∧
      i.services.chat request world = (.error f, world')) ∨
    (n.kind = .promptAgent ∧ i.services.agent ⟨i.workflow, n.id, via, outputs⟩ world = (.error f, world')) ∨
    i.modelOf n = some (.error f) ∨
    (n.kind ≠ .start ∧ i.workflow.inputValue n via outputs = .error f) ∨ n.kind = .agentTool := by
  have started : n.kind ≠ .start := by
    intro hkind
    rw [effect_start hkind] at h
    cases h
  -- A prompt and a decision both put a question about the value that they read.
  have asked : ∀ {value : Json} {request : Result ChatRequest}, i.workflow.inputValue n via outputs = .ok value →
      i.question n value = some request → i.consult request world = (.error f, world') →
      (∃ value request, i.workflow.inputValue n via outputs = .ok value ∧ i.question n value = some (.ok request) ∧
        i.services.chat request world = (.error f, world')) ∨ i.modelOf n = some (.error f) := by
    intro value request hvalue hquestion h
    rcases consult_error h with ⟨rfl, -⟩ | ⟨asked, rfl, hchat⟩
    · exact Or.inr (question_error hquestion)
    · exact Or.inl ⟨value, asked, hvalue, hquestion, hchat⟩
  unfold effect at h
  cases hc : n.config with
  | start _ => simp only [hc] at h; cases h
  | stop _ => simp only [hc] at h; cases h
  | userInput _ => simp only [hc] at h; cases h
  | agentTool _ => exact Or.inr (Or.inr (Or.inr (Or.inr (by rw [Step.kind, hc]; rfl))))
  | promptLlm c =>
    simp only [hc] at h
    split at h
    case h_2 => cases h
    case h_1 g world₁ hreply =>
      obtain ⟨⟨⟩, rfl⟩ := Prod.mk.inj h
      cases hinput : i.workflow.inputValue n via outputs with
      | error g =>
        rw [hinput] at hreply
        obtain ⟨⟨⟩, rfl⟩ := Prod.mk.inj hreply
        exact Or.inr (Or.inr (Or.inr (Or.inl ⟨started, rfl⟩)))
      | ok value =>
        rw [hinput] at hreply
        rcases asked hinput (by rw [question, hc]; rfl) hreply with h | h
        · exact Or.inl (hinput ▸ h)
        · exact Or.inr (Or.inr (Or.inl h))
  | promptAgent c =>
    simp only [hc] at h
    split at h
    case h_2 => cases h
    case h_1 g world₁ hreply =>
      obtain ⟨⟨⟩, rfl⟩ := Prod.mk.inj h
      exact Or.inr (Or.inl ⟨by rw [Step.kind, hc]; rfl, hreply⟩)
  | splitter _ _ =>
    simp only [hc] at h
    split at h
    case h_2 => cases h
    case h_1 g hinput =>
      obtain ⟨⟨⟩, rfl⟩ := Prod.mk.inj h
      exact Or.inr (Or.inr (Or.inr (Or.inl ⟨started, hinput⟩)))
  | collector _ _ =>
    simp only [hc] at h
    split at h
    case h_2 => cases h
    case h_1 g hinput =>
      obtain ⟨⟨⟩, rfl⟩ := Prod.mk.inj h
      exact Or.inr (Or.inr (Or.inr (Or.inl ⟨started, hinput⟩)))
  | decision _ question =>
    simp only [hc] at h
    split at h
    case h_1 g hinput =>
      obtain ⟨⟨⟩, rfl⟩ := Prod.mk.inj h
      exact Or.inr (Or.inr (Or.inr (Or.inl ⟨started, hinput⟩)))
    case h_2 value hinput =>
      split at h
      case h_2 => cases h
      case h_1 g world₁ hreply =>
        obtain ⟨⟨⟩, rfl⟩ := Prod.mk.inj h
        rcases asked hinput (by rw [Interpreter.question, hc]) hreply with h | h
        · exact Or.inl (hinput ▸ h)
        · exact Or.inr (Or.inr (Or.inl h))

end Interpreter
end EventFlow
