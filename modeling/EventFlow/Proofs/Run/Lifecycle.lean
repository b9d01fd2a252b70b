/-
  EventFlow.Proofs.Run.Lifecycle — what the status of a run says about the rest of it.

  Between operations a run is idle, waits for a human, has finished or has failed: an operation
  that comes to an end leaves it stopped. An idle run is as new, one that waits stands at the step
  whose question is open, one that has finished has nothing left to visit, and an error stands in
  the state of a failed run and of no other.

  Proved:
  - `Lifecycle.move` / `Passed.lifecycle`: one move keeps this, so every run does.
  - `operate_stopped` / `drive_stopped` / `Reached.stopped`: operations leave no run under way.
  - `reached_lifecycle`: all of it, for every session that operations lead to.
-/

import EventFlow.Proofs.Run.Moves

namespace EventFlow

variable {σ : Type}

structure Lifecycle (w : Workflow) (st : RunState) : Prop where
  idle : st.status = .idle → st = { runId := st.runId }
  waiting : st.status = .awaitingInput → ∃ n, w.step? n.id = some n ∧ n.kind = .userInput ∧
    st.current = some n.id ∧ st.trail.getLast? = some n.id
  finished : st.status = .finished → st.frontier = []
  error : st.error.isSome ↔ st.status = .failed

namespace Lifecycle

variable {w : Workflow} {st : RunState} {i : Interpreter σ} {s t : Session σ}

theorem error_eq_none (h : Lifecycle w st) (status : st.status ≠ .failed) : st.error = none := by
  cases herror : st.error with
  | none => rfl
  | some _ => exact absurd (h.error.mp (by rw [herror]; rfl)) status

theorem new (runId : String) : Lifecycle w { runId } where
  idle _ := rfl
  waiting h := by cases h
  finished h := by cases h
  error := by simp

theorem of_running (running : st.status = .running) (error : st.error = none) : Lifecycle w st where
  idle h := by rw [running] at h; cases h
  waiting h := by rw [running] at h; cases h
  finished h := by rw [running] at h; cases h
  error := by simp [running, error]

theorem of_waiting {n : Step} (waiting : st.status = .awaitingInput) (step : w.step? n.id = some n)
    (kind : n.kind = .userInput) (current : st.current = some n.id) (last : st.trail.getLast? = some n.id)
    (error : st.error = none) : Lifecycle w st where
  idle h := by rw [waiting] at h; cases h
  waiting _ := ⟨n, step, kind, current, last⟩
  finished h := by rw [waiting] at h; cases h
  error := by simp [waiting, error]

theorem of_finished (finished : st.status = .finished) (next : st.frontier = []) (error : st.error = none) :
    Lifecycle w st where
  idle h := by rw [finished] at h; cases h
  waiting h := by rw [finished] at h; cases h
  finished _ := next
  error := by simp [finished, error]

theorem of_failed {message : String} (failed : st.status = .failed) (error : st.error = some message) :
    Lifecycle w st where
  idle h := by rw [failed] at h; cases h
  waiting h := by rw [failed] at h; cases h
  finished h := by rw [failed] at h; cases h
  error := by simp [failed, error]

theorem failWith (s : Session σ) (f : Failure) : Lifecycle w (s.failWith f).2.state := of_failed rfl rfl

/-- A move keeps what the status says. -/
theorem move (h : Lifecycle i.workflow s.state) (move : i.Move s t) : Lifecycle i.workflow t.state := by
  have noError : s.state.status = .running → s.state.error = none := fun running =>
    h.error_eq_none (by rw [running]; decide)
  cases move with
  | pass running _ => exact of_running running (noError running)
  | complete running _ => exact of_running running (noError running)
  | fail _ _ => exact failWith ..
  | unknown _ _ _ => exact failWith ..
  | lost _ _ => exact failWith ..
  | answer waiting _ _ => exact of_running rfl (h.error_eq_none (by rw [waiting]; decide))
  | finish running next => exact of_finished rfl next (noError running)
  | @wait v rest n prompt world running visits =>
    obtain ⟨-, c, config, -⟩ := Interpreter.wait_cases visits.effect
    have step : i.workflow.step? n.id = some n := (Workflow.mem_of_step? visits.step).2 ▸ visits.step
    have kind : n.kind = .userInput := by rw [Step.kind, config]; rfl
    exact of_waiting rfl step kind rfl List.getLast?_concat (noError running)

end Lifecycle

namespace Interpreter

variable {i : Interpreter σ} {s t : Session σ} {p : Option Json}

theorem Passed.lifecycle (h : i.Passed p s) : Lifecycle i.workflow s.state := by
  induction h with
  | new runId _ _ => exact .new runId
  | noStart _ _ _ _ => exact .failWith ..
  | @begin p s start payload _ idle _ ih =>
    exact .of_running (s.begun_status start payload)
      ((s.begun_error start payload).trans (ih.error_eq_none (by rw [idle]; decide)))
  | move _ h ih => exact ih.move h

/-! ## No run is left under way -/

theorem status_ne_running_of_outcome? {st : RunState} {o : Outcome} (h : i.outcome? st = some o) :
    st.status ≠ .running := by
  intro running
  rw [outcome?, running] at h
  cases h

theorem operate_stopped {fuel : Nat} {r : Result Outcome} (op : Operation) (stopped : s.state.status ≠ .running)
    (h : i.operate fuel op s = some (r, t)) : t.state.status ≠ .running := by
  by_cases allowed : s.state.status = op.allowedIn
  · obtain ⟨o, -, ho⟩ := operate_outcome allowed h
    exact status_ne_running_of_outcome? ho
  · rw [operate_refused allowed] at h
    cases Option.some.inj h
    exact stopped

theorem answerAll_stopped {τ : Type} {input : InputChannel τ} {fuel rounds : Nat} {o : Outcome} {x y : τ}
    {r : Result Outcome} (stopped : s.state.status ≠ .running)
    (h : i.answerAll input fuel rounds o s x = some (r, t, y)) : t.state.status ≠ .running := by
  induction rounds generalizing o s x with
  | zero => cases h
  | succ rounds ih =>
    cases o with
    | finished => cases Option.some.inj h; exact stopped
    | failed _ => cases Option.some.inj h; exact stopped
    | awaitingInput node prompt =>
      simp only [answerAll] at h
      split at h
      case h_1 f x' hinput => cases Option.some.inj h; exact stopped
      case h_2 answer x' hinput =>
        split at h
        case h_1 => cases h
        case h_2 f s' hsubmit =>
          cases Option.some.inj h
          exact operate_stopped (.submit answer) stopped hsubmit
        case h_3 o s' hsubmit => exact ih (operate_stopped (.submit answer) stopped hsubmit) h

theorem drive_stopped {τ : Type} {input : InputChannel τ} {fuel : Nat} {x y : τ} {r : Result Outcome}
    (stopped : s.state.status ≠ .running) (h : i.drive input fuel s x = some (r, t, y)) :
    t.state.status ≠ .running := by
  unfold drive at h
  split at h
  case h_1 => exact answerAll_stopped stopped h
  case h_2 =>
    split at h
    case h_1 => cases h
    case h_2 f s' hrun => cases Option.some.inj h; exact operate_stopped (.run .null) stopped hrun
    case h_3 o s' hrun => exact answerAll_stopped (operate_stopped (.run .null) stopped hrun) h

/-- Operations leave no run under way. -/
theorem Reached.stopped (h : i.Reached p s) : s.state.status ≠ .running := by
  induction h with
  | new _ _ => intro h; cases h
  | @run _ _ _ _ payload _ _ h ih => exact operate_stopped (.run payload) ih h
  | @submit _ _ _ _ answer _ _ h ih => exact operate_stopped (.submit answer) ih h
  | drive _ h ih => exact drive_stopped ih h
  | restart _ _ _ => intro h; cases h

/-! ## Every session that operations lead to -/

/-- Whatever the workflow, the services and the operations, a run is stopped after each of them and its
    state is as the status says. The next operation is refused, and nothing happens, or it comes in
    time and leaves a state that stands for its outcome. -/
theorem reached_lifecycle (h : i.Reached p s) :
    s.state.status ≠ .running ∧ Lifecycle i.workflow s.state ∧
      ∀ fuel (op : Operation),
        (s.state.status ≠ op.allowedIn →
          i.operate fuel op s = some (.error (.unexpectedStatus op.allowedIn s.state.status), s)) ∧
        (s.state.status = op.allowedIn → ∀ r t, i.operate fuel op s = some (r, t) →
          ∃ o, r = .ok o ∧ i.outcome? t.state = some o) :=
  ⟨h.stopped, h.passed.lifecycle, fun fuel _ =>
    ⟨fun early => operate_refused early fuel, fun allowed _ _ done => operate_outcome allowed done⟩⟩

/-- A run that waits for a name cannot be started again; it stands at the question. -/
theorem askName_lifecycle :
    let w : Workflow := {
      steps := [
        ⟨"start", .start none, none, some (.single ⟨"in"⟩)⟩,
        ⟨"ask", .userInput { prompt := some "Name?" }, some (.single ⟨"in"⟩), some (.single ⟨"out"⟩)⟩,
        ⟨"stop", .stop none, some (.single ⟨"out"⟩), none⟩] }
    let i : Interpreter Unit := ⟨w, ⟨fun _ u => (.ok "", u), fun _ u => (.ok "", u)⟩, defaultMaxTokens⟩
    ∃ t, (∃ r, i.run 3 .null ⟨{ runId := "first" }, (), []⟩ = some (r, t)) ∧ i.Reached (some .null) t ∧
      t.state.status = .awaitingInput ∧ Lifecycle w t.state ∧
      i.run 3 .null t = some (.error (.unexpectedStatus .idle .awaitingInput), t) ∧
      ∀ r t', i.submit 3 "Ada" t = some (r, t') → ∃ o, r = .ok o ∧ i.outcome? t'.state = some o := by
  intro w i
  have hrun : (i.run 3 .null ⟨{ runId := "first" }, (), []⟩).map (·.2.state.status) = some .awaitingInput := by
    decide +kernel
  obtain ⟨⟨r, t⟩, hrun, waiting⟩ := Option.map_eq_some_iff.mp hrun
  have reached : i.Reached (some .null) t := Reached.run (.new "first" ()) hrun
  obtain ⟨-, lifecycle, operations⟩ := reached_lifecycle reached
  have refused := (operations 3 (.run .null)).1 (by rw [waiting]; decide)
  rw [waiting] at refused
  exact ⟨t, ⟨r, hrun⟩, reached, waiting, lifecycle, refused, (operations 3 (.submit "Ada")).2 waiting⟩

end Interpreter
end EventFlow
