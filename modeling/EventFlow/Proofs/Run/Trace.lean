/-
  EventFlow.Proofs.Run.Trace — what a run has done so far.

  A state keeps the visits still to make and the values recorded last, but not how it came to them.
  A trace does (`Trace`): the events published before the run began, its payload, and one deed after
  the other, each a visit with what it came to or the answer of a human. It is kept beside a session
  by the same moves (`Traced`), so what it says about the session can be shown deed by deed.

  Proved:
  - `Deed.fired_visit`: the events that a deed fires, told by the kind of the step, are those that
    the visit sets off.
  - `Passed.exists_traced`: every session that a run passes through has a trace; a run loses no visit
    to an unknown step and waits at none.
  - `Traced.run` / `Traced.submit`: an operation leaves a session whose trace has the payload, or one
    more answer.
-/

import EventFlow.Proofs.Run.Lifecycle

namespace EventFlow

variable {σ : Type}

/-! ## What a visit comes to -/

namespace Effect

def events : Effect → List Event
  | pass events | complete _ events => events
  | wait _ | fail _ => []

/-- The step is carried out to its end. -/
def completes : Effect → Bool
  | pass _ | complete .. => true
  | wait _ | fail _ => false

def recorded (n : Step) (outputs : Outputs) : Effect → Outputs
  | complete value _ => outputs.insert n.id value
  | _ => outputs

end Effect

def Turn.session : Turn σ → Session σ
  | proceed s => s
  | pause s node prompt => (s.pauseAt node prompt).2
  | fail s f => (s.failWith f).2

namespace Interpreter

section

variable (i : Interpreter σ) (n : Step) (s : Session σ) (e : Effect)

@[simp] theorem session_trail : (i.turn n s e).session.state.trail = s.state.trail := by cases e <;> rfl

@[simp] theorem session_frontier :
    (i.turn n s e).session.state.frontier = Session.visits i.workflow e.events ++ s.state.frontier := by
  cases e <;> rfl

@[simp] theorem session_outputs : (i.turn n s e).session.state.outputs = e.recorded n s.state.outputs := by
  cases e <;> rfl

end

/-- The verdict of a decision on the value that it reads, if it comes to one. -/
def verdict? (i : Interpreter σ) (n : Step) (via : Option Event) (outputs : Outputs) (world : σ) : Option Bool :=
  match n.config, i.workflow.inputValue n via outputs with
  | .decision _ question, .ok value =>
    match i.consult (i.decisionRequest question value.plainText) world with
    | (.ok text, _) => some (Decision.verdict text)
    | (.error _, _) => none
  | _, _ => none

end Interpreter

/-! ## Deeds -/

/-- What a run does: it visits a step, which comes to something, and to a verdict if it is a
    decision, or it takes the answer to the question of a step. -/
inductive Deed where
  | visit (v : Visit) (n : Step) (verdict : Option Bool) (effect : Effect)
  | answer (n : Step) (text : String)

namespace Deed

/-- The events that a deed fires: all of a step that is carried out to its end, of a decision only the one
    of the branch that its verdict chooses, and all of a step that is answered. -/
def fired : Deed → List Event
  | answer n _ => n.emitted
  | visit _ n verdict effect =>
    if effect.completes then
      match n.kind with
      | .start | .promptLlm | .promptAgent | .splitter | .collector => n.emitted
      | .decision => (verdict.bind fun yes => n.branch? (Decision.handle yes)).toList
      | .stop | .userInput | .agentTool => []
    else []

def visit? : Deed → Option Visit
  | visit v .. => some v
  | answer .. => none

def answer? : Deed → Option String
  | visit .. => none
  | answer _ text => some text

/-- A visit sets off the events that its deed fires. -/
theorem fired_visit {i : Interpreter σ} {n : Step} {via : Option Event} {outputs : Outputs} {world world' : σ}
    {e : Effect} (h : i.effect n via outputs world = (e, world')) (v : Visit) :
    (visit v n (i.verdict? n via outputs world) e).fired = e.events := by
  unfold Interpreter.effect at h
  unfold Interpreter.verdict? fired Step.kind
  cases hc : n.config <;> simp only [hc] at h <;> repeat' split at h
  all_goals
    obtain ⟨rfl, rfl⟩ := Prod.mk.inj h
    simp_all [Effect.completes, Effect.events, NodeConfig.kind]

end Deed

structure Trace where
  before : List RunEvent := []
  payload : Option Json := none
  deeds : List Deed := []

namespace Trace

def add (trace : Trace) (d : Deed) : Trace := { trace with deeds := trace.deeds ++ [d] }

def made (trace : Trace) : List Visit := trace.deeds.filterMap Deed.visit?

/-- The events fired, oldest first. -/
def fired (trace : Trace) : List Event := trace.deeds.flatMap Deed.fired

def answers (trace : Trace) : List String := trace.deeds.filterMap Deed.answer?

variable (trace : Trace) (d : Deed)

@[simp] theorem made_add : (trace.add d).made = trace.made ++ d.visit?.toList := by
  cases d <;> simp [add, made, Deed.visit?]

@[simp] theorem fired_add : (trace.add d).fired = trace.fired ++ d.fired := by simp [add, fired]

@[simp] theorem answers_add : (trace.add d).answers = trace.answers ++ d.answer?.toList := by
  cases d <;> simp [add, answers, Deed.answer?]

theorem answers_add_visit (v : Visit) (n : Step) (verdict : Option Bool) (e : Effect) :
    (trace.add (.visit v n verdict e)).answers = trace.answers :=
  (trace.answers_add _).trans (List.append_nil _)

theorem made_add_answer (n : Step) (text : String) : (trace.add (.answer n text)).made = trace.made :=
  (trace.made_add _).trans (List.append_nil _)

end Trace

/-! ## Traced sessions -/

namespace Interpreter

inductive Traced (i : Interpreter σ) : Trace → Session σ → Prop
  | new (runId : String) (world : σ) (events : List RunEvent) :
      Traced i { before := events } { state := { runId }, world, events }
  | noStart {trace : Trace} {s : Session σ} (payload : Json) :
      Traced i trace s → s.state.status = .idle → i.workflow.startStep? = none →
      Traced i { trace with payload := some payload } (s.started.failWith .noStart).2
  | begin {trace : Trace} {s : Session σ} {start : Step} (payload : Json) :
      Traced i trace s → s.state.status = .idle → i.workflow.startStep? = some start →
      Traced i { trace with payload := some payload } (s.begun start payload)
  | visit {trace : Trace} {s : Session σ} {v : Visit} {rest : List Visit} {n : Step} {e : Effect} {world : σ} :
      Traced i trace s → s.state.status = .running → i.Visits s v rest n e world →
      Traced i (trace.add (.visit v n (i.verdict? n v.via s.state.outputs s.world) e))
        (i.turn n (s.entered rest n world) e).session
  | finish {trace : Trace} {s : Session σ} :
      Traced i trace s → s.state.status = .running → s.state.frontier = [] → Traced i trace s.finish.2
  | answer {trace : Trace} {s : Session σ} {n : Step} {id : String} (text : String) :
      Traced i trace s → s.state.status = .awaitingInput → s.state.current = some id →
      i.workflow.step? id = some n →
      Traced i (trace.add (.answer n text)) ((s.answered id text).follow i.workflow n.emitted)

variable {i : Interpreter σ} {s t : Session σ} {p : Option Json} {trace : Trace}

theorem Move.of_visits {v : Visit} {rest : List Visit} {n : Step} {e : Effect} {world : σ}
    (running : s.state.status = .running) (visits : i.Visits s v rest n e world) :
    i.Move s (i.turn n (s.entered rest n world) e).session := by
  cases e with
  | pass events => exact .pass running visits
  | complete value events => exact .complete running visits
  | wait prompt => exact .wait running visits
  | fail f => exact .fail running visits

/-- A run passes through every session that has a trace. -/
theorem Traced.passed (h : i.Traced trace s) : i.Passed trace.payload s := by
  induction h with
  | new runId world events => exact .new runId world events
  | noStart payload _ idle hstart ih => exact ih.noStart payload idle hstart
  | begin payload _ idle hstart ih => exact ih.begin payload idle hstart
  | visit _ running visits ih => exact ih.move (.of_visits running visits)
  | finish _ running next ih => exact ih.move (.finish running next)
  | answer text _ waiting current step ih => exact ih.move (.answer waiting current step)

/-! ## No visit leads nowhere -/

/-- Events lead to steps of the workflow only. -/
theorem exists_step?_of_mem_visits {w : Workflow} {events : List Event} {v : Visit} (hv : v ∈ Session.visits w events) :
    ∃ n, w.step? v.node = some n := by
  obtain ⟨e, -, hv⟩ := List.mem_flatMap.mp hv
  obtain ⟨c, hc, rfl⟩ := List.mem_map.mp hv
  exact w.exists_step? (Workflow.mem_consumersOf_iff.mp hc).1

/-- A pending visit leads to a step of the workflow. -/
theorem Passed.exists_step (h : i.Passed p s) : ∀ v ∈ s.state.frontier, ∃ n, i.workflow.step? v.node = some n := by
  induction h with
  | new _ _ _ => intro v hv; cases hv
  | noStart _ _ _ _ ih => exact ih
  | @begin p s start payload _ _ hstart ih =>
    intro v hv
    rw [Session.begun_frontier] at hv
    rcases List.mem_cons.mp hv with rfl | hv
    · exact i.workflow.exists_step? (List.mem_of_find?_eq_some hstart)
    · exact ih v hv
  | @move p s t _ move ih =>
    intro v hv
    have later : ∀ {u rest}, s.state.frontier = u :: rest → v ∈ rest → ∃ n, i.workflow.step? v.node = some n :=
      fun next hv => ih v (next ▸ List.mem_cons_of_mem _ hv)
    cases move with
    | pass _ visits => exact (List.mem_append.mp hv).elim exists_step?_of_mem_visits (later visits.next)
    | complete _ visits => exact (List.mem_append.mp hv).elim exists_step?_of_mem_visits (later visits.next)
    | wait _ visits => exact later visits.next hv
    | fail _ visits => exact later visits.next hv
    | unknown _ next _ => exact later next hv
    | answer _ _ _ => exact (List.mem_append.mp hv).elim exists_step?_of_mem_visits (ih v)
    | finish _ _ => exact ih v hv
    | lost _ _ => exact ih v hv

/-- A step that waits is one of the workflow. -/
theorem Passed.exists_current (h : i.Passed p s) (waiting : s.state.status = .awaitingInput) :
    ∃ n, s.state.current.bind i.workflow.step? = some n := by
  obtain ⟨n, step, -, current, -⟩ := h.lifecycle.waiting waiting
  exact ⟨n, by rw [current]; exact step⟩

theorem Passed.exists_traced (h : i.Passed p s) : ∃ trace, i.Traced trace s ∧ trace.payload = p := by
  induction h with
  | new runId world events => exact ⟨_, .new runId world events, rfl⟩
  | noStart payload _ idle hstart ih =>
    obtain ⟨trace, h, -⟩ := ih
    exact ⟨_, h.noStart payload idle hstart, rfl⟩
  | begin payload _ idle hstart ih =>
    obtain ⟨trace, h, -⟩ := ih
    exact ⟨_, h.begin payload idle hstart, rfl⟩
  | move hs move ih =>
    obtain ⟨trace, h, rfl⟩ := ih
    cases move with
    | pass running visits => exact ⟨_, h.visit running visits, rfl⟩
    | complete running visits => exact ⟨_, h.visit running visits, rfl⟩
    | wait running visits => exact ⟨_, h.visit running visits, rfl⟩
    | fail running visits => exact ⟨_, h.visit running visits, rfl⟩
    | finish running next => exact ⟨_, h.finish running next, rfl⟩
    | answer waiting current step => exact ⟨_, h.answer _ waiting current step, rfl⟩
    | @unknown v rest running next step =>
      obtain ⟨n, hn⟩ := hs.exists_step v (next ▸ List.mem_cons_self)
      rw [step] at hn
      cases hn
    | lost waiting current =>
      obtain ⟨n, hn⟩ := hs.exists_current waiting
      rw [current] at hn
      cases hn

/-! ## Operations -/

/-- Making visits adds visits to the trace. -/
theorem Traced.advance {fuel : Nat} {o : Outcome} (h : i.Traced trace s) (running : s.state.status = .running)
    (done : i.advance fuel s = some (o, t)) :
    ∃ trace', i.Traced trace' t ∧ trace'.before = trace.before ∧ trace'.payload = trace.payload ∧
      trace'.answers = trace.answers := by
  induction fuel generalizing s trace with
  | zero => cases done
  | succ fuel ih =>
    rcases i.next_cases s with next | ⟨v, rest, next, step⟩ | ⟨v, rest, n, e, world, visits⟩
    · rw [advance_nil next] at done
      cases Option.some.inj done
      exact ⟨trace, h.finish running next, rfl, rfl, rfl⟩
    · obtain ⟨n, hn⟩ := h.passed.exists_step v (next ▸ List.mem_cons_self)
      rw [step] at hn
      cases hn
    · have visited := h.visit running visits
      have same := trace.answers_add_visit v n (i.verdict? n v.via s.state.outputs s.world) e
      cases e with
      | pass events =>
        rw [advance_proceed visits rfl] at done
        obtain ⟨trace', traced, before, payload, answers⟩ := ih visited running done
        exact ⟨trace', traced, before, payload, answers.trans same⟩
      | complete value events =>
        rw [advance_proceed visits rfl] at done
        obtain ⟨trace', traced, before, payload, answers⟩ := ih visited running done
        exact ⟨trace', traced, before, payload, answers.trans same⟩
      | wait prompt =>
        rw [advance_wait visits] at done
        cases Option.some.inj done
        exact ⟨_, visited, rfl, rfl, same⟩
      | fail f =>
        rw [advance_fail visits] at done
        cases Option.some.inj done
        exact ⟨_, visited, rfl, rfl, same⟩

/-- Starting an idle run gives it its payload. -/
theorem Traced.run {fuel : Nat} {payload : Json} {r : Result Outcome} (h : i.Traced trace s)
    (idle : s.state.status = .idle) (done : i.run fuel payload s = some (r, t)) :
    ∃ trace', i.Traced trace' t ∧ trace'.before = trace.before ∧ trace'.payload = some payload ∧
      trace'.answers = trace.answers := by
  cases hstart : i.workflow.startStep? with
  | none =>
    rw [run_of_noStart idle hstart] at done
    obtain ⟨o, -, done⟩ := toReply_eq_some done
    cases Option.some.inj done
    exact ⟨_, h.noStart payload idle hstart, rfl, rfl, rfl⟩
  | some start =>
    rw [run_of_start idle hstart] at done
    obtain ⟨o, -, done⟩ := toReply_eq_some done
    exact (h.begin payload idle hstart).advance (s.begun_status start payload) done

/-- Answering a run that waits adds the answer. -/
theorem Traced.submit {fuel : Nat} {text : String} {r : Result Outcome} (h : i.Traced trace s)
    (waiting : s.state.status = .awaitingInput) (done : i.submit fuel text s = some (r, t)) :
    ∃ trace', i.Traced trace' t ∧ trace'.before = trace.before ∧ trace'.payload = trace.payload ∧
      trace'.answers = trace.answers ++ [text] := by
  obtain ⟨n, hn⟩ := h.passed.exists_current waiting
  obtain ⟨id, current, step⟩ := Option.bind_eq_some_iff.mp hn
  rw [submit_of_step waiting current step] at done
  obtain ⟨o, -, done⟩ := toReply_eq_some done
  obtain ⟨trace', traced, before, payload, answers⟩ := (h.answer text waiting current step).advance rfl done
  exact ⟨trace', traced, before, payload, answers.trans (by rw [Trace.answers_add]; rfl)⟩

end Interpreter
end EventFlow
