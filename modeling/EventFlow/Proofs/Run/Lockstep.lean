/-
  EventFlow.Proofs.Run.Lockstep — runs of workflows that differ in the order of their steps only.

  Two sessions are alike (`Session.Alike`) if they differ in the name of the run at most, and their
  worlds are alike in a sense that the services keep to. Interpreters whose workflows answer every
  lookup alike (`Counterparts`) lead alike sessions to alike sessions, visit by visit, with the same
  replies. So the order in which a graph is searched cannot be told from any run.

  Proved:
  - `Counterparts.effect` / `Counterparts.advance`: one visit, and all visits of an operation.
  - `Counterparts.operate` / `Counterparts.transcript`: one operation, and a list of them.
  - `searchOrder_immaterial`: both searches give the same steps, and runs that cannot be told apart.
-/

import EventFlow.Graph.Sample
import EventFlow.Proofs.Compilation.SearchOrder
import EventFlow.Proofs.Run.Evaluation
import EventFlow.Proofs.Run.Moves
import Mathlib.Data.List.Forall2

namespace EventFlow

variable {σ α : Type} {alike : σ → σ → Prop}

/-- The same reply, in worlds that are alike. -/
def SameReply (alike : σ → σ → Prop) (x y : α × σ) : Prop := x.1 = y.1 ∧ alike x.2 y.2

theorem SameReply.exists_eq {x y : α × σ} (h : SameReply alike x y) :
    ∃ reply a b, x = (reply, a) ∧ y = (reply, b) ∧ alike a b :=
  ⟨x.1, x.2, y.2, rfl, Prod.ext h.1.symm rfl, h.2⟩

def RunEvent.nameless : RunEvent → RunEvent
  | runStarted _ => runStarted ""
  | runFinished _ => runFinished ""
  | runFailed _ error => runFailed "" error
  | e => e

/-! ## Sessions -/

namespace Session

structure Alike (alike : σ → σ → Prop) (s t : Session σ) : Prop where
  state : ∃ runId, t.state = { s.state with runId }
  events : s.events.map RunEvent.nameless = t.events.map RunEvent.nameless
  world : alike s.world t.world

variable {s t : Session σ} (h : s.Alike alike t)

namespace Alike

include h

theorem status : t.state.status = s.state.status := by obtain ⟨⟨id, h⟩, -, -⟩ := h; rw [h]

theorem current : t.state.current = s.state.current := by obtain ⟨⟨id, h⟩, -, -⟩ := h; rw [h]

theorem outputs : t.state.outputs = s.state.outputs := by obtain ⟨⟨id, h⟩, -, -⟩ := h; rw [h]

theorem frontier : t.state.frontier = s.state.frontier := by obtain ⟨⟨id, h⟩, -, -⟩ := h; rw [h]

theorem withState {change : RunState → RunState}
    (blind : ∀ st runId, change { st with runId } = { change st with runId }) :
    (s.withState change).Alike alike (t.withState change) := by
  obtain ⟨⟨id, state⟩, events, world⟩ := h
  refine ⟨⟨id, ?_⟩, events, world⟩
  show change t.state = { change s.state with runId := id }
  rw [state, blind]

theorem withWorld {a b : σ} (world : alike a b) : Alike alike { s with world := a } { t with world := b } :=
  ⟨h.state, h.events, world⟩

theorem publish {e e' : RunEvent} (same : e.nameless = e'.nameless) : (s.publish e).Alike alike (t.publish e') := by
  refine ⟨h.state, ?_, h.world⟩
  simp only [Session.publish, List.map_append, List.map_cons, List.map_nil, h.events, same]

theorem record (id : String) (value : Json) : (s.record id value).Alike alike (t.record id value) :=
  h.withState fun _ _ => rfl

theorem complete (n : Step) (value : Json) : (s.complete n value).Alike alike (t.complete n value) :=
  (h.record n.id value).publish rfl

theorem entered (rest : List Visit) (n : Step) {a b : σ} (world : alike a b) :
    (s.entered rest n a).Alike alike (t.entered rest n b) := by
  have enter : ((s.withState fun st => { st with frontier := rest }).enter n).Alike alike
      ((t.withState fun st => { st with frontier := rest }).enter n) :=
    ((h.withState fun _ _ => rfl).withState fun _ _ => rfl).publish rfl
  exact enter.withWorld world

theorem follow {w w' : Workflow} (agrees : w.Agrees w') (events : List Event) :
    (s.follow w events).Alike alike (t.follow w' events) := by
  rw [Session.follow, Session.follow, agrees.visits]
  exact h.withState fun _ _ => rfl

theorem failWith (f : Failure) : SameReply (Alike alike) (s.failWith f) (t.failWith f) :=
  ⟨rfl, (h.withState fun _ _ => rfl).publish rfl⟩

theorem finish : SameReply (Alike alike) s.finish t.finish := ⟨rfl, (h.withState fun _ _ => rfl).publish rfl⟩

theorem pauseAt (node prompt : String) : SameReply (Alike alike) (s.pauseAt node prompt) (t.pauseAt node prompt) :=
  ⟨rfl, (h.withState fun _ _ => rfl).publish rfl⟩

theorem started : s.started.Alike alike t.started := (h.withState fun _ _ => rfl).publish rfl

theorem begun (start : Step) (payload : Json) : (s.begun start payload).Alike alike (t.begun start payload) := by
  unfold Session.begun
  refine withState ?_ fun _ _ => rfl
  cases payload.isNull with
  | true => exact h.started
  | false => exact h.started.record start.id payload

theorem answered (id answer : String) : (s.answered id answer).Alike alike (t.answered id answer) :=
  ((h.record id _).withState fun _ _ => rfl).publish rfl

end Alike

end Session

/-! ## Interpreters -/

namespace Interpreter

theorem toReply_rel {x y : Option (Outcome × Session σ)} (h : Option.Rel (SameReply (Session.Alike alike)) x y) :
    Option.Rel (SameReply (Session.Alike alike)) (toReply x) (toReply y) := by
  cases h with
  | none => exact .none
  | some h => exact .some ⟨congrArg Except.ok h.1, h.2⟩

/-- Interpreters whose workflows answer every lookup alike, and whose services reply alike. -/
structure Counterparts (alike : σ → σ → Prop) (i j : Interpreter σ) : Prop where
  workflow : i.workflow.Agrees j.workflow
  maxTokens : i.maxTokens = j.maxTokens
  chat : ∀ request a b, alike a b → SameReply alike (i.services.chat request a) (j.services.chat request b)
  agent : ∀ node via outputs a b, alike a b →
    SameReply alike (i.services.agent ⟨i.workflow, node, via, outputs⟩ a)
      (j.services.agent ⟨j.workflow, node, via, outputs⟩ b)

namespace Counterparts

variable {i j : Interpreter σ} {s t : Session σ} {a b : σ} (c : Counterparts alike i j)

include c

theorem model : i.model = j.model := by
  funext llm model temperature
  rw [Interpreter.model, Interpreter.model, c.workflow.settings, c.maxTokens]

theorem promptRequest : i.promptRequest = j.promptRequest := by
  funext config input
  rw [Interpreter.promptRequest, Interpreter.promptRequest, c.model]

theorem decisionRequest : i.decisionRequest = j.decisionRequest := by
  funext question input
  rw [Interpreter.decisionRequest, Interpreter.decisionRequest, c.model]

theorem consult (world : alike a b) (request : Result ChatRequest) :
    SameReply alike (i.consult request a) (j.consult request b) := by
  cases request with
  | error f => exact ⟨rfl, world⟩
  | ok request => exact c.chat request a b world

/-- A step does the same for both. -/
theorem effect (world : alike a b) (n : Step) (via : Option Event) (outputs : Outputs) :
    SameReply alike (i.effect n via outputs a) (j.effect n via outputs b) := by
  unfold Interpreter.effect
  rw [c.workflow.inputValue, c.promptRequest, c.decisionRequest]
  cases n.config with
  | start _ => exact ⟨rfl, world⟩
  | stop _ => exact ⟨rfl, world⟩
  | userInput _ => exact ⟨rfl, world⟩
  | agentTool _ => exact ⟨rfl, world⟩
  | promptLlm config =>
    obtain ⟨reply, a', b', hi, hj, world⟩ := (c.consult world
      ((j.workflow.inputValue n via outputs).bind fun v => j.promptRequest config v.plainText)).exists_eq
    simp only [hi, hj]
    cases reply <;> exact ⟨rfl, world⟩
  | promptAgent _ =>
    obtain ⟨reply, a', b', hi, hj, world⟩ := (c.agent n.id via outputs a b world).exists_eq
    simp only [hi, hj]
    cases reply <;> exact ⟨rfl, world⟩
  | splitter _ _ => cases j.workflow.inputValue n via outputs <;> exact ⟨rfl, world⟩
  | collector _ _ => cases j.workflow.inputValue n via outputs <;> exact ⟨rfl, world⟩
  | decision _ question =>
    cases j.workflow.inputValue n via outputs with
    | error _ => exact ⟨rfl, world⟩
    | ok value =>
      obtain ⟨reply, a', b', hi, hj, world⟩ :=
        (c.consult world (j.decisionRequest question value.plainText)).exists_eq
      simp only [hi, hj]
      cases reply <;> exact ⟨rfl, world⟩

/-- The next visit is the same for both, and comes to the same. -/
theorem visits (h : s.Alike alike t) {v : Visit} {rest : List Visit} {n : Step} {e : Effect}
    (visits : i.Visits s v rest n e a) : ∃ b, j.Visits t v rest n e b ∧ alike a b := by
  obtain ⟨same, world⟩ := c.effect h.world n v.via s.state.outputs
  rw [visits.effect] at same world
  refine ⟨_, ⟨h.frontier.trans visits.next, (c.workflow.step? _).symm.trans visits.step, ?_⟩, world⟩
  rw [h.outputs]
  exact Prod.ext same.symm rfl

/-- Making visits until the run stops leads both to the same outcome, or needs more fuel for both. -/
theorem advance (h : s.Alike alike t) (fuel : Nat) :
    Option.Rel (SameReply (Session.Alike alike)) (i.advance fuel s) (j.advance fuel t) := by
  induction fuel generalizing s t with
  | zero => exact .none
  | succ fuel ih =>
    rcases i.next_cases s with next | ⟨v, rest, next, step⟩ | ⟨v, rest, n, e, world, visits⟩
    · rw [advance_nil next, advance_nil (h.frontier.trans next)]
      exact .some h.finish
    · rw [advance_unknown next step, advance_unknown (h.frontier.trans next) ((c.workflow.step? _).symm.trans step)]
      exact .some ((h.withState fun _ _ => rfl).failWith _)
    · obtain ⟨world', visits', worlds⟩ := c.visits h visits
      have entered := h.entered rest n worlds
      cases e with
      | pass events =>
        rw [advance_proceed visits rfl, advance_proceed visits' rfl]
        exact ih (entered.follow c.workflow events)
      | complete value events =>
        rw [advance_proceed visits rfl, advance_proceed visits' rfl]
        exact ih ((entered.complete n value).follow c.workflow events)
      | wait prompt =>
        rw [advance_wait visits, advance_wait visits']
        exact .some (entered.pauseAt n.id prompt)
      | fail f =>
        rw [advance_fail visits, advance_fail visits']
        exact .some (entered.failWith f)

theorem run (h : s.Alike alike t) (fuel : Nat) (payload : Json) :
    Option.Rel (SameReply (Session.Alike alike)) (i.run fuel payload s) (j.run fuel payload t) := by
  by_cases idle : s.state.status = .idle
  · cases hstart : i.workflow.startStep? with
    | none =>
      rw [run_of_noStart idle hstart, run_of_noStart (h.status.trans idle) (c.workflow.startStep?.symm.trans hstart)]
      exact toReply_rel (.some (h.started.failWith .noStart))
    | some start =>
      rw [run_of_start idle hstart, run_of_start (h.status.trans idle) (c.workflow.startStep?.symm.trans hstart)]
      exact toReply_rel (c.advance (h.begun start payload) fuel)
  · rw [run_refused idle, run_refused (h.status ▸ idle)]
    exact .some ⟨by rw [expected, expected, h.status], h⟩

theorem submit (h : s.Alike alike t) (fuel : Nat) (answer : String) :
    Option.Rel (SameReply (Session.Alike alike)) (i.submit fuel answer s) (j.submit fuel answer t) := by
  by_cases waiting : s.state.status = .awaitingInput
  · cases current : s.state.current with
    | none =>
      rw [submit_of_noCurrent waiting current,
        submit_of_noCurrent (h.status.trans waiting) (h.current.trans current)]
      exact toReply_rel (.some (h.failWith _))
    | some id =>
      cases step : i.workflow.step? id with
      | none =>
        rw [submit_of_unknown waiting current step,
          submit_of_unknown (h.status.trans waiting) (h.current.trans current) ((c.workflow.step? id).symm.trans step)]
        exact toReply_rel (.some (h.failWith _))
      | some n =>
        rw [submit_of_step waiting current step, submit_of_step (h.status.trans waiting) (h.current.trans current)
          ((c.workflow.step? id).symm.trans step)]
        exact toReply_rel (c.advance ((h.answered id answer).follow c.workflow n.emitted) fuel)
  · rw [submit_refused waiting, submit_refused (h.status ▸ waiting)]
    exact .some ⟨by rw [expected, expected, h.status], h⟩

end Counterparts

/-! ## Operations -/

/-- What each of the operations comes to, one after the other. -/
def transcript (i : Interpreter σ) (fuel : Nat) :
    List Operation → Session σ → Option (List (Result Outcome × Session σ))
  | [], _ => some []
  | op :: ops, s => do
    let reply ← i.operate fuel op s
    return reply :: (← transcript i fuel ops reply.2)

namespace Counterparts

variable {i j : Interpreter σ} {s t : Session σ} (c : Counterparts alike i j)

include c

theorem operate (h : s.Alike alike t) (fuel : Nat) (op : Operation) :
    Option.Rel (SameReply (Session.Alike alike)) (i.operate fuel op s) (j.operate fuel op t) := by
  cases op with
  | run payload => exact c.run h fuel payload
  | submit answer => exact c.submit h fuel answer

/-- Operation by operation, both give the same reply and are left in sessions that are alike. -/
theorem transcript (h : s.Alike alike t) (fuel : Nat) (ops : List Operation) :
    Option.Rel (List.Forall₂ (SameReply (Session.Alike alike))) (i.transcript fuel ops s) (j.transcript fuel ops t) := by
  induction ops generalizing s t with
  | nil => exact .some .nil
  | cons op ops ih =>
    have first := c.operate h fuel op
    simp only [Interpreter.transcript]
    generalize i.operate fuel op s = x at first
    generalize j.operate fuel op t = y at first
    cases first with
    | none => exact .none
    | @some x y first =>
      have rest := ih first.2
      simp only [Option.bind_eq_bind, Option.bind_some]
      generalize i.transcript fuel ops x.2 = xs at rest
      generalize j.transcript fuel ops y.2 = ys at rest
      cases rest with
      | none => exact .none
      | some rest => exact .some (.cons first rest)

end Counterparts

end Interpreter

/-! ## Both searches -/

structure Logged.Alike (alike : σ → σ → Prop) (w' : Workflow) (l m : Logged σ) : Prop where
  world : alike l.world m.world
  chats : l.chats = m.chats
  agents : l.agents.map (fun request => { request with workflow := w' }) = m.agents

/-- The replies do not depend on the order in which the workflow lists its steps. -/
structure Services.IgnoresOrder (services : Services σ) (alike : σ → σ → Prop) (w w' : Workflow) : Prop where
  chat : ∀ request a b, alike a b → SameReply alike (services.chat request a) (services.chat request b)
  agent : ∀ node via outputs a b, alike a b →
    SameReply alike (services.agent ⟨w, node, via, outputs⟩ a) (services.agent ⟨w', node, via, outputs⟩ b)

theorem Services.IgnoresOrder.counterparts {services : Services σ} {w w' : Workflow}
    (ignores : services.IgnoresOrder alike w w') (agrees : w.Agrees w') (maxTokens : Nat) :
    Interpreter.Counterparts (Logged.Alike alike w') (Interpreter.mk w services maxTokens).logged
      (Interpreter.mk w' services maxTokens).logged where
  workflow := agrees
  maxTokens := rfl
  chat request l m h := by
    obtain ⟨same, world⟩ := ignores.chat request l.world m.world h.world
    exact ⟨same, world, congrArg (· ++ [request]) h.chats, h.agents⟩
  agent node via outputs l m h := by
    obtain ⟨same, world⟩ := ignores.agent node via outputs l.world m.world h.world
    refine ⟨same, world, h.chats, ?_⟩
    show List.map _ (l.agents ++ [_]) = m.agents ++ [_]
    rw [List.map_append, h.agents]
    rfl

/-- Both searches of a graph give the same steps, listed in another order behind the first, and
    operation by operation the same outcomes, states, events and questions. -/
theorem Graph.searchOrder_immaterial {g : Graph} {settings : Settings} {configs : ToolConfigs} {order : SearchOrder}
    {w : Workflow} (distinct : (g.edges.map (·.id)).Nodup) (compiled : g.compile settings configs order = .ok w)
    (order' : SearchOrder) :
    ∃ w', g.compile settings configs order' = .ok w' ∧ w.Rearranged w' ∧
      ∀ {σ : Type} (services : Services σ) (alike : σ → σ → Prop), services.IgnoresOrder alike w w' →
      ∀ (maxTokens : Nat) (world world' : σ), alike world world' →
      ∀ (runId runId' : String) (fuel : Nat) (ops : List Interpreter.Operation),
        Option.Rel (List.Forall₂ (SameReply (Session.Alike (Logged.Alike alike w'))))
          ((Interpreter.mk w services maxTokens).logged.transcript fuel ops
            { state := { runId }, world := { world } })
          ((Interpreter.mk w' services maxTokens).logged.transcript fuel ops
            { state := { runId := runId' }, world := { world := world' } }) := by
  obtain ⟨w', compiled', rearranged⟩ := Graph.compile_rearranged compiled order'
  refine ⟨w', compiled', rearranged, fun services alike ignores maxTokens world world' worlds runId runId' fuel ops => ?_⟩
  have c := ignores.counterparts (Graph.compile_agrees distinct compiled rearranged) maxTokens
  have new : Session.Alike (Logged.Alike alike w') { state := { runId }, world := { world } }
      { state := { runId := runId' }, world := { world := world' } } := ⟨⟨runId', rfl⟩, rfl, worlds, rfl, rfl⟩
  exact c.transcript new fuel ops

/-- The two lists of steps differ, and the agent is told of them, but no run tells them apart. -/
theorem Graph.decision_searchOrder_immaterial :
    let services : Services Nat :=
      ⟨fun _ n => (.ok "true", n + 1), fun request n => (.ok (toString request.workflow.steps.length), n + 1)⟩
    ∃ w w', (Sample.decision.edges.map (·.id)).Nodup ∧
      Sample.decision.compile Sample.settings .empty .breadthFirst = .ok w ∧
      Sample.decision.compile Sample.settings .empty .depthFirst = .ok w' ∧ w.steps ≠ w'.steps ∧
      services.IgnoresOrder Eq w w' ∧
      ∀ fuel, Option.Rel (List.Forall₂ (SameReply (Session.Alike (Logged.Alike Eq w'))))
        ((Interpreter.mk w services defaultMaxTokens).logged.transcript fuel [.run .null, .submit "fine"]
          { state := { runId := "first" }, world := { world := 0 } })
        ((Interpreter.mk w' services defaultMaxTokens).logged.transcript fuel [.run .null, .submit "fine"]
          { state := { runId := "second" }, world := { world := 0 } }) := by
  intro services
  have distinct : (Sample.decision.edges.map (·.id)).Nodup := by decide
  have hs : Sample.decision.firstOfKind? .start = some 0 := by decide
  have compiled := Graph.compile_of_firstOfKind? hs Sample.settings .empty .breadthFirst
  have compiled' := Graph.compile_of_firstOfKind? hs Sample.settings .empty .depthFirst
  have differ : Sample.decision.compiled .empty .breadthFirst 0 ≠ Sample.decision.compiled .empty .depthFirst 0 := by
    have enterable : Sample.decision.index.enterable = [0, 1, 2, 3, 4, 5] := by decide
    have targets : [0, 1, 2, 3, 4, 5].map Sample.decision.index.targets = [[1], [2], [3, 5], [4], [], []] := by decide
    simp only [List.map_cons, List.map_nil, List.cons.injEq] at targets
    have found : Sample.decision.index.reach .depthFirst 0 = [0, 1, 2, 3, 4, 5] := by
      simp [GraphIndex.reach, enterable, Reach.depthFirst, targets]
    unfold Graph.compiled Graph.stepOf GraphIndex.drafts
    rw [found]
    decide +kernel
  obtain ⟨w', same, rearranged, lockstep⟩ := Graph.searchOrder_immaterial distinct compiled .depthFirst
  cases Except.ok.inj (compiled'.symm.trans same)
  have ignores : services.IgnoresOrder Eq ⟨Sample.decision.compiled .empty .breadthFirst 0, Sample.settings⟩
      ⟨Sample.decision.compiled .empty .depthFirst 0, Sample.settings⟩ := by
    refine ⟨fun _ _ _ h => ⟨rfl, congrArg (· + 1) h⟩, fun _ _ _ _ _ h => ⟨?_, congrArg (· + 1) h⟩⟩
    exact congrArg (fun n => Except.ok (toString n)) rearranged.steps.length_eq
  exact ⟨_, _, distinct, compiled, compiled', differ, ignores,
    fun fuel => lockstep services Eq ignores _ 0 0 rfl "first" "second" fuel _⟩

end EventFlow
