/-
  EventFlow.Proofs.Run.Survival — what an operation leaves as it was.

  A visit puts its step at the end of the trail and records a value for that step or none. So after any
  number of visits all that was recorded is still there, and the value of a step that has not been
  visited is the old one. Only two values come from outside: the payload becomes that of the start, the
  answer that of the step which asked (`Operation.receiver?`). This holds for any workflow and any
  session, and however the operation ends.

  Proved:
  - `FailedAt.outputs`: a step that fails records nothing.
  - `session_survives` / `advance_survives`: one visit, then all visits until the run stops.
  - `begun_survives`, `answered_survives` / `operate_receives`: what a payload and an answer change.
  - `outputs_survive`: every operation, and where it fails.
-/

import EventFlow.Proofs.Run.Narration

namespace EventFlow

variable {σ : Type}

/-- What is left of a run that has gone on: the run is the same, its trail has only grown, no value has
    gone, and another value than before has a step that was visited or that received one. -/
structure Survives (s t : Session σ) (received : Option String) : Prop where
  runId : t.state.runId = s.state.runId
  keys : ∀ id, (s.state.outputs.get? id).isSome → (t.state.outputs.get? id).isSome
  values : ∃ added, t.state.trail = s.state.trail ++ added ∧
    ∀ id, t.state.outputs.get? id ≠ s.state.outputs.get? id → id ∈ added ∨ received = some id

namespace Survives

variable {s t u : Session σ} {received : Option String}

/-- Nothing has been visited and nothing recorded. -/
theorem of_same (runId : t.state.runId = s.state.runId) (trail : t.state.trail = s.state.trail)
    (outputs : t.state.outputs = s.state.outputs) : Survives s t received where
  runId := runId
  keys id present := by rwa [outputs]
  values := ⟨[], by rw [trail, List.append_nil], fun id differs => absurd (by rw [outputs]) differs⟩

/-- Nothing has been visited, but a step has received a value. -/
theorem of_insert {id : String} {value : Json} (runId : t.state.runId = s.state.runId)
    (trail : t.state.trail = s.state.trail) (outputs : t.state.outputs = s.state.outputs.insert id value) :
    Survives s t (some id) where
  runId := runId
  keys k present := by
    rw [outputs]
    exact Dictionary.isSome_get?_insert present id value
  values := by
    refine ⟨[], by rw [trail, List.append_nil], fun k differs => Or.inr ?_⟩
    rw [outputs, Dictionary.get?_insert] at differs
    by_cases same : k = id
    · rw [same]
    · rw [if_neg same] at differs
      exact absurd rfl differs

theorem trans (before : Survives s u received) (after : Survives u t none) : Survives s t received where
  runId := after.runId.trans before.runId
  keys id present := after.keys id (before.keys id present)
  values := by
    obtain ⟨first, trail, changed⟩ := before.values
    obtain ⟨second, trail', changed'⟩ := after.values
    refine ⟨first ++ second, by rw [trail', trail, List.append_assoc], fun id differs => ?_⟩
    by_cases same : t.state.outputs.get? id = u.state.outputs.get? id
    · rw [same] at differs
      rcases changed id differs with visited | receives
      · exact Or.inl (List.mem_append_left _ visited)
      · exact Or.inr receives
    · rcases changed' id same with visited | receives
      · exact Or.inl (List.mem_append_right _ visited)
      · cases receives

end Survives

namespace Interpreter

variable {i : Interpreter σ} {s t u : Session σ} {fuel : Nat}

/-! ## A step that fails -/

/-- The last thing that was done is a visit in the one session, whose step failed; that ended the run. -/
def FailedAt (i : Interpreter σ) (u t : Session σ) : Prop :=
  ∃ v u' f, i.visit v u = .fail u' f ∧ t = (u'.failWith f).2

/-- A step that fails leaves all values as they were just before it. -/
theorem FailedAt.outputs (h : i.FailedAt u t) : t.state.outputs = u.state.outputs := by
  obtain ⟨v, u', f, fails, rfl⟩ := h
  show u'.state.outputs = u.state.outputs
  unfold visit at fails
  split at fails
  · cases fails
    rfl
  · next n _ =>
    rw [perform_eq] at fails
    generalize (i.effect n v.via (u.enter n).state.outputs (u.enter n).world).1 = e at fails
    cases e with
    | fail g => cases fails; rfl
    | _ => cases fails

/-! ## Visits -/

/-- After a visit the step is the last of the trail, and only its value may be another one. -/
theorem session_survives (n : Step) (rest : List Visit) (world : σ) (e : Effect) :
    Survives s (i.turn n (s.entered rest n world) e).session none where
  runId := by cases e <;> rfl
  keys id present := by
    rw [i.session_outputs]
    cases e with
    | complete value events => exact Dictionary.isSome_get?_insert present n.id value
    | _ => exact present
  values := by
    refine ⟨[n.id], i.session_trail .., fun id differs => Or.inl (List.mem_singleton.mpr ?_)⟩
    rw [i.session_outputs] at differs
    cases e with
    | complete value events =>
      by_cases same : id = n.id
      · exact same
      · exact absurd ((Dictionary.get?_insert ..).trans (if_neg same)) differs
    | _ => exact absurd rfl differs

/-- Visits until the run stops. If it fails, that is where a step has failed. -/
theorem advance_survives {o : Outcome} (done : i.advance fuel s = some (o, t)) :
    Survives s t none ∧ ∀ message, o = .failed message → ∃ u, Survives s u none ∧ i.FailedAt u t := by
  induction fuel generalizing s with
  | zero => cases done
  | succ fuel ih =>
    have taken : ∀ rest, Survives s (s.withState fun st => { st with frontier := rest }) none := fun rest =>
      .of_same rfl rfl rfl
    have onward : ∀ {u}, Survives s u none → i.advance fuel u = some (o, t) →
        Survives s t none ∧ ∀ message, o = .failed message → ∃ u, Survives s u none ∧ i.FailedAt u t := by
      intro u before done
      obtain ⟨after, failing⟩ := ih done
      refine ⟨before.trans after, fun message failed => ?_⟩
      obtain ⟨x, reached, failedAt⟩ := failing message failed
      exact ⟨x, before.trans reached, failedAt⟩
    rcases i.next_cases s with next | ⟨v, rest, next, step⟩ | ⟨v, rest, n, e, world, visits⟩
    · rw [advance_nil next] at done
      cases Option.some.inj done
      refine ⟨.of_same rfl rfl rfl, fun message failed => ?_⟩
      cases failed
    · rw [advance_unknown next step] at done
      cases Option.some.inj done
      have fails : i.visit v (s.withState fun st => { st with frontier := rest }) =
          .fail (s.withState fun st => { st with frontier := rest }) (.nodeNotFound v.node) := by
        rw [visit]
        simp only [step]
      exact ⟨.of_same rfl rfl rfl, fun _ _ => ⟨_, taken rest, v, _, _, fails, rfl⟩⟩
    · have visited := session_survives (i := i) (s := s) n rest world e
      cases e with
      | pass events =>
        rw [advance_proceed visits rfl] at done
        exact onward visited done
      | complete value events =>
        rw [advance_proceed visits rfl] at done
        exact onward visited done
      | wait prompt =>
        rw [advance_wait visits] at done
        cases Option.some.inj done
        refine ⟨visited, fun message failed => ?_⟩
        cases failed
      | fail f =>
        rw [advance_fail visits] at done
        cases Option.some.inj done
        exact ⟨visited, fun _ _ => ⟨_, taken rest, v, _, f, visit_eq visits, rfl⟩⟩

/-! ## Operations -/

/-- The step that receives a value from outside: the start of a run that begins with a payload, or the
    step whose question is answered. -/
def Operation.receiver? (w : Workflow) (st : RunState) : Operation → Option String
  | .run payload => if st.status = .idle ∧ payload.isNull = false then w.startStep?.map (·.id) else none
  | .submit _ => if st.status = .awaitingInput then st.current else none

theorem begun_survives (idle : s.state.status = .idle) {start : Step} (hstart : i.workflow.startStep? = some start)
    (payload : Json) :
    Survives s (s.begun start payload) ((Operation.run payload).receiver? i.workflow s.state) := by
  have outputs := s.begun_outputs start payload
  have runId : (s.begun start payload).state.runId = s.state.runId := by unfold Session.begun; split <;> rfl
  rw [Operation.receiver?, hstart]
  cases isNull : payload.isNull with
  | true =>
    rw [isNull, if_pos rfl] at outputs
    exact .of_same runId (s.begun_trail start payload) outputs
  | false =>
    rw [isNull, if_neg Bool.false_ne_true] at outputs
    rw [if_pos ⟨idle, rfl⟩]
    exact .of_insert runId (s.begun_trail start payload) outputs

theorem answered_survives (waiting : s.state.status = .awaitingInput) {id : String}
    (current : s.state.current = some id) (text : String) (events : List Event) :
    Survives s ((s.answered id text).follow i.workflow events) ((Operation.submit text).receiver? i.workflow s.state) := by
  rw [Operation.receiver?, if_pos waiting, current]
  exact .of_insert rfl rfl rfl

/-- An operation that comes in time ends the run at once, with nothing visited and nothing recorded, or
    goes on with visits after the value from outside has been recorded. -/
theorem operate_receives {op : Operation} (allowed : s.state.status = op.allowedIn) :
    (∃ (s' : Session σ) (f : Failure), s'.state.runId = s.state.runId ∧ s'.state.trail = s.state.trail ∧
      s'.state.outputs = s.state.outputs ∧ ∀ fuel, i.operate fuel op s = toReply (some (s'.failWith f))) ∨
    ∃ u, Survives s u (op.receiver? i.workflow s.state) ∧
      ∀ fuel, i.operate fuel op s = toReply (i.advance fuel u) := by
  cases op with
  | run payload =>
    cases hstart : i.workflow.startStep? with
    | none => exact Or.inl ⟨s.started, _, rfl, rfl, rfl, fun fuel => run_of_noStart allowed hstart fuel payload⟩
    | some start =>
      exact Or.inr ⟨_, begun_survives allowed hstart payload, fun fuel => run_of_start allowed hstart fuel payload⟩
  | submit answer =>
    cases here : s.state.current with
    | none => exact Or.inl ⟨s, _, rfl, rfl, rfl, fun fuel => submit_of_noCurrent allowed here fuel answer⟩
    | some id =>
      cases step : i.workflow.step? id with
      | none => exact Or.inl ⟨s, _, rfl, rfl, rfl, fun fuel => submit_of_unknown allowed here step fuel answer⟩
      | some n =>
        exact Or.inr ⟨_, answered_survives allowed here answer n.emitted,
          fun fuel => submit_of_step allowed here step fuel answer⟩

/-- After every operation, however it ends, the run is the same, its trail has only grown, no value has
    gone, and only the steps visited and the one that received a value may have other values. If the
    operation fails, nothing was visited or recorded, or the values are as they were just before the
    step that failed. -/
theorem outputs_survive {op : Operation} {r : Result Outcome} (done : i.operate fuel op s = some (r, t)) :
    Survives s t (op.receiver? i.workflow s.state) ∧
    ∀ message, r = .ok (.failed message) →
      (t.state.trail = s.state.trail ∧ t.state.outputs = s.state.outputs) ∨
      ∃ u, Survives s u (op.receiver? i.workflow s.state) ∧ i.FailedAt u t ∧
        t.state.outputs = u.state.outputs := by
  by_cases allowed : s.state.status = op.allowedIn
  · rcases operate_receives allowed with ⟨s', f, runId, trail, outputs, replies⟩ | ⟨u, received, replies⟩
    · rw [replies] at done
      obtain ⟨o, -, fails⟩ := toReply_eq_some done
      cases Option.some.inj fails
      exact ⟨.of_same runId trail outputs, fun _ _ => Or.inl ⟨trail, outputs⟩⟩
    · rw [replies] at done
      obtain ⟨o, rfl, advances⟩ := toReply_eq_some done
      obtain ⟨after, failing⟩ := advance_survives advances
      refine ⟨received.trans after, fun message failed => Or.inr ?_⟩
      obtain ⟨x, before, failedAt⟩ := failing message (Except.ok.inj failed)
      exact ⟨x, received.trans before, failedAt, failedAt.outputs⟩
  · rw [operate_refused allowed] at done
    cases Option.some.inj done
    refine ⟨.of_same rfl rfl rfl, fun message failed => ?_⟩
    cases failed

/-- The second agent fails: the payload, the answer and the greeting are still there. -/
theorem greeting_survives :
    let once : AgentService Nat := fun _ asked => (if asked = 0 then .ok "Hello" else .error .noStart, asked + 1)
    let i : Interpreter Nat := ⟨greeting, ⟨fun _ asked => (.ok "", asked), once⟩, defaultMaxTokens⟩
    let new : Session Nat := ⟨{ runId := "first" }, 0, []⟩
    ∃ s t, i.operate 9 (.run (.str "go")) new = some (.ok (.awaitingInput "name" "Name?"), s) ∧
      i.operate 9 (.submit "Ada") s = some (.ok (.failed "No start node found"), t) ∧
      Survives new s (some "start") ∧ Survives s t (some "name") ∧
      s.state.trail = ["start", "name"] ∧ t.state.trail = ["start", "name", "greet", "thank"] ∧
      ∃ u, Survives s u (some "name") ∧ i.FailedAt u t ∧ t.state.outputs = u.state.outputs := by
  intro once i new
  obtain ⟨s, t, asked, answered, receiver, before, after⟩ : ∃ s t,
      i.operate 9 (.run (.str "go")) new = some (.ok (.awaitingInput "name" "Name?"), s) ∧
      i.operate 9 (.submit "Ada") s = some (.ok (.failed "No start node found"), t) ∧
      (Operation.submit "Ada").receiver? greeting s.state = some "name" ∧ s.state.trail = ["start", "name"] ∧
      t.state.trail = ["start", "name", "greet", "thank"] := ⟨_, _, rfl, rfl, rfl, rfl, rfl⟩
  obtain ⟨started, -⟩ := outputs_survive asked
  obtain ⟨survives, failing⟩ := outputs_survive answered
  rw [receiver] at survives failing
  rcases failing _ rfl with ⟨same, -⟩ | failedAt
  · rw [before, after] at same
    cases same
  · exact ⟨s, t, asked, answered, started, survives, before, after, failedAt⟩

end Interpreter
end EventFlow
