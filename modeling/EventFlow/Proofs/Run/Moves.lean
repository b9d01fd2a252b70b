/-
  EventFlow.Proofs.Run.Moves — a run as one move after the other.

  A run that is under way makes the next visit, finishes when none is left, or is answered
  (`Move`). Whatever the services reply and however the operations follow each other, a session
  gets on by moves only.

  Proved:
  - `advance_moves` / `run_cases` / `submit_moves` / `drive_cases`: each operation is a sequence
    of moves, after a start if the run was idle.
  - `operate_refused` / `operate_cases` / `operate_outcome`: an operation is refused, ends the run at
    once, or goes on with visits; its outcome can be read off the state that it leaves.
  - `Reached.passed`: so what holds of a new session and is kept by the start and by every move
    holds of every session that operations lead to.
-/

import EventFlow.Proofs.Run.Effect
import Mathlib.Logic.Relation

namespace EventFlow

open Relation (ReflTransGen)

variable {σ : Type}

namespace Session

/-- The session of a run that has been started but has no visit to make yet. -/
def started (s : Session σ) : Session σ :=
  (s.withState fun st => { st with status := .running }).publish (.runStarted s.state.runId)

/-- A payload becomes the value of the start, and the start is visited first. -/
def begun (s : Session σ) (start : Step) (payload : Json) : Session σ :=
  (if payload.isNull then s.started else s.started.record start.id payload).withState fun st =>
    { st with frontier := { node := start.id } :: st.frontier }

def answered (s : Session σ) (id answer : String) : Session σ :=
  ((s.record id (.str answer)).withState fun st => { st with status := .running }).publish (.inputReceived id)

variable (s : Session σ) (start : Step) (payload : Json)

@[simp] theorem begun_status : (s.begun start payload).state.status = .running := by
  unfold begun; split <;> rfl

@[simp] theorem begun_frontier : (s.begun start payload).state.frontier = { node := start.id } :: s.state.frontier := by
  unfold begun; split <;> rfl

@[simp] theorem begun_outputs : (s.begun start payload).state.outputs =
    if payload.isNull then s.state.outputs else s.state.outputs.insert start.id payload := by
  unfold begun; split <;> rfl

@[simp] theorem begun_trail : (s.begun start payload).state.trail = s.state.trail := by unfold begun; split <;> rfl

@[simp] theorem begun_error : (s.begun start payload).state.error = s.state.error := by unfold begun; split <;> rfl

end Session

namespace Interpreter

inductive Move (i : Interpreter σ) (s : Session σ) : Session σ → Prop
  | pass {v : Visit} {rest : List Visit} {n : Step} {events : List Event} {world : σ}
      (running : s.state.status = .running) (visits : i.Visits s v rest n (.pass events) world) :
      Move i s ((s.entered rest n world).follow i.workflow events)
  | complete {v : Visit} {rest : List Visit} {n : Step} {value : Json} {events : List Event} {world : σ}
      (running : s.state.status = .running) (visits : i.Visits s v rest n (.complete value events) world) :
      Move i s (((s.entered rest n world).complete n value).follow i.workflow events)
  | wait {v : Visit} {rest : List Visit} {n : Step} {prompt : String} {world : σ}
      (running : s.state.status = .running) (visits : i.Visits s v rest n (.wait prompt) world) :
      Move i s ((s.entered rest n world).pauseAt n.id prompt).2
  | fail {v : Visit} {rest : List Visit} {n : Step} {f : Failure} {world : σ}
      (running : s.state.status = .running) (visits : i.Visits s v rest n (.fail f) world) :
      Move i s ((s.entered rest n world).failWith f).2
  | unknown {v : Visit} {rest : List Visit} (running : s.state.status = .running)
      (next : s.state.frontier = v :: rest) (step : i.workflow.step? v.node = none) :
      Move i s ((s.withState fun st => { st with frontier := rest }).failWith (.nodeNotFound v.node)).2
  | finish (running : s.state.status = .running) (next : s.state.frontier = []) : Move i s s.finish.2
  | answer {id answer : String} {n : Step} (waiting : s.state.status = .awaitingInput)
      (current : s.state.current = some id) (step : i.workflow.step? id = some n) :
      Move i s ((s.answered id answer).follow i.workflow n.emitted)
  | lost {f : Failure} (waiting : s.state.status = .awaitingInput)
      (current : (s.state.current.bind i.workflow.step?) = none) : Move i s (s.failWith f).2

variable {i : Interpreter σ} {s t : Session σ} {fuel : Nat}

theorem advance_moves (running : s.state.status = .running) {o : Outcome} (h : i.advance fuel s = some (o, t)) :
    ReflTransGen i.Move s t := by
  induction fuel generalizing s with
  | zero => cases h
  | succ fuel ih =>
    rcases i.next_cases s with next | ⟨v, rest, next, step⟩ | ⟨v, rest, n, e, world, visits⟩
    · rw [advance_nil next] at h
      cases Option.some.inj h
      exact ReflTransGen.single (.finish running next)
    · rw [advance_unknown next step] at h
      cases Option.some.inj h
      exact ReflTransGen.single (.unknown running next step)
    · cases e with
      | pass events =>
        rw [advance_proceed visits rfl] at h
        exact ReflTransGen.head (.pass running visits) (ih running h)
      | complete value events =>
        rw [advance_proceed visits rfl] at h
        exact ReflTransGen.head (.complete running visits) (ih running h)
      | wait prompt =>
        rw [advance_wait visits] at h
        cases Option.some.inj h
        exact ReflTransGen.single (.wait running visits)
      | fail f =>
        rw [advance_fail visits] at h
        cases Option.some.inj h
        exact ReflTransGen.single (.fail running visits)

theorem promptOf_eq {n : Step} {c : UserInputConfig} (step : i.workflow.step? n.id = some n)
    (config : n.config = .userInput c) : promptOf i.workflow n.id = c.promptText := by
  obtain ⟨id, config, accepts, emits⟩ := n
  cases config
  rw [promptOf, step]

/-- What making visits comes to can be read off the state that they leave. -/
theorem advance_outcome {o : Outcome} (h : i.advance fuel s = some (o, t)) : i.outcome? t.state = some o := by
  induction fuel generalizing s with
  | zero => cases h
  | succ fuel ih =>
    rcases i.next_cases s with next | ⟨v, rest, next, step⟩ | ⟨v, rest, n, e, world, visits⟩
    · rw [advance_nil next] at h
      cases Option.some.inj h
      rfl
    · rw [advance_unknown next step] at h
      cases Option.some.inj h
      rfl
    · cases e with
      | pass events => rw [advance_proceed visits rfl] at h; exact ih h
      | complete value events => rw [advance_proceed visits rfl] at h; exact ih h
      | wait prompt =>
        rw [advance_wait visits] at h
        cases Option.some.inj h
        obtain ⟨-, c, config, rfl⟩ := wait_cases visits.effect
        have step : i.workflow.step? n.id = some n := (Workflow.mem_of_step? visits.step).2 ▸ visits.step
        show some (Outcome.awaitingInput n.id (promptOf i.workflow n.id)) = _
        rw [promptOf_eq step config]
      | fail f =>
        rw [advance_fail visits] at h
        cases Option.some.inj h
        rfl

/-! ## Starting -/

theorem toReply_eq_some {x : Option (Outcome × Session σ)} {r : Result Outcome} (h : toReply x = some (r, t)) :
    ∃ o, r = .ok o ∧ x = some (o, t) := by
  obtain ⟨⟨o, s⟩, hx, hr⟩ := Option.map_eq_some_iff.mp h
  cases hr
  exact ⟨o, rfl, hx⟩

theorem run_refused (started : s.state.status ≠ .idle) (fuel : Nat) (payload : Json) :
    i.run fuel payload s = some (.error (expected .idle s), s) := by
  rw [run, if_pos started]

theorem run_of_noStart (idle : s.state.status = .idle) (hstart : i.workflow.startStep? = none) (fuel : Nat)
    (payload : Json) : i.run fuel payload s = toReply (some (s.started.failWith .noStart)) := by
  rw [run, if_neg (Decidable.not_not.mpr idle)]
  simp only [hstart]
  rfl

theorem run_of_start {start : Step} (idle : s.state.status = .idle) (hstart : i.workflow.startStep? = some start)
    (fuel : Nat) (payload : Json) : i.run fuel payload s = toReply (i.advance fuel (s.begun start payload)) := by
  rw [run, if_neg (Decidable.not_not.mpr idle)]
  simp only [hstart]
  rfl

/-- Starting a run: it is refused, there is no start, or the start is visited first. -/
theorem run_cases {payload : Json} {r : Result Outcome} (h : i.run fuel payload s = some (r, t)) :
    (s.state.status ≠ .idle ∧ t = s) ∨
    (s.state.status = .idle ∧ i.workflow.startStep? = none ∧ t = (s.started.failWith .noStart).2) ∨
    ∃ start, s.state.status = .idle ∧ i.workflow.startStep? = some start ∧
      ReflTransGen i.Move (s.begun start payload) t := by
  by_cases idle : s.state.status = .idle
  · cases hstart : i.workflow.startStep? with
    | none =>
      rw [run_of_noStart idle hstart] at h
      obtain ⟨o, -, h⟩ := toReply_eq_some h
      cases Option.some.inj h
      exact Or.inr (Or.inl ⟨idle, rfl, rfl⟩)
    | some start =>
      rw [run_of_start idle hstart] at h
      obtain ⟨o, -, h⟩ := toReply_eq_some h
      exact Or.inr (Or.inr ⟨start, idle, rfl, advance_moves (s.begun_status start payload) h⟩)
  · rw [run_refused idle] at h
    cases Option.some.inj h
    exact Or.inl ⟨idle, rfl⟩

/-! ## Answering -/

theorem submit_refused (busy : s.state.status ≠ .awaitingInput) (fuel : Nat) (answer : String) :
    i.submit fuel answer s = some (.error (expected .awaitingInput s), s) := by
  rw [submit, if_pos busy]

theorem submit_of_noCurrent (waiting : s.state.status = .awaitingInput) (current : s.state.current = none) (fuel : Nat)
    (answer : String) :
    i.submit fuel answer s = toReply (some (s.failWith (.invalidGraph "paused without a current node"))) := by
  rw [submit, if_neg (Decidable.not_not.mpr waiting)]
  simp only [current]

theorem submit_of_unknown {id : String} (waiting : s.state.status = .awaitingInput) (current : s.state.current = some id)
    (step : i.workflow.step? id = none) (fuel : Nat) (answer : String) :
    i.submit fuel answer s = toReply (some (s.failWith (.nodeNotFound id))) := by
  rw [submit, if_neg (Decidable.not_not.mpr waiting)]
  simp only [current, step]

theorem submit_of_lost (waiting : s.state.status = .awaitingInput)
    (current : s.state.current.bind i.workflow.step? = none) (fuel : Nat) (answer : String) :
    ∃ f, i.submit fuel answer s = toReply (some (s.failWith f)) := by
  cases hid : s.state.current with
  | none => exact ⟨_, submit_of_noCurrent waiting hid fuel answer⟩
  | some id =>
    rw [hid, Option.bind_some] at current
    exact ⟨_, submit_of_unknown waiting hid current fuel answer⟩

theorem submit_of_step {id : String} {n : Step} (waiting : s.state.status = .awaitingInput)
    (current : s.state.current = some id) (step : i.workflow.step? id = some n) (fuel : Nat) (answer : String) :
    i.submit fuel answer s = toReply (i.advance fuel ((s.answered id answer).follow i.workflow n.emitted)) := by
  rw [submit, if_neg (Decidable.not_not.mpr waiting)]
  simp only [current, step]
  rfl

theorem submit_moves {answer : String} {r : Result Outcome} (h : i.submit fuel answer s = some (r, t)) :
    ReflTransGen i.Move s t := by
  by_cases waiting : s.state.status = .awaitingInput
  · cases current : s.state.current.bind i.workflow.step? with
    | none =>
      obtain ⟨f, hf⟩ := submit_of_lost waiting current fuel answer
      rw [hf] at h
      obtain ⟨o, -, h⟩ := toReply_eq_some h
      cases Option.some.inj h
      exact ReflTransGen.single (.lost waiting current)
    | some n =>
      obtain ⟨id, hid, step⟩ := Option.bind_eq_some_iff.mp current
      rw [submit_of_step waiting hid step] at h
      obtain ⟨o, -, h⟩ := toReply_eq_some h
      exact ReflTransGen.head (.answer waiting hid step) (advance_moves rfl h)
  · rw [submit_refused waiting] at h
    cases Option.some.inj h
    exact ReflTransGen.refl

/-! ## Operations -/

inductive Operation where
  | run (payload : Json)
  | submit (answer : String)

def Operation.allowedIn : Operation → RunStatus
  | run _ => .idle
  | submit _ => .awaitingInput

def operate (i : Interpreter σ) (fuel : Nat) : Operation → Session σ → Reply σ Outcome
  | .run payload, s => i.run fuel payload s
  | .submit answer, s => i.submit fuel answer s

/-- An operation that comes at another time is refused, and nothing happens. -/
theorem operate_refused {op : Operation} (h : s.state.status ≠ op.allowedIn) (fuel : Nat) :
    i.operate fuel op s = some (.error (expected op.allowedIn s), s) := by
  cases op with
  | run payload => exact run_refused h fuel payload
  | submit answer => exact submit_refused h fuel answer

/-- An operation that comes in time ends the run at once, or goes on with visits: that of the start,
    or those that the step that waited sets off. -/
theorem operate_cases {op : Operation} (h : s.state.status = op.allowedIn) :
    (∃ (s' : Session σ) (f : Failure), s'.state.trail = s.state.trail ∧
      ∀ fuel, i.operate fuel op s = toReply (some (s'.failWith f))) ∨
    ∃ (s' : Session σ) (new : List Visit), s'.state.trail = s.state.trail ∧
      s'.state.frontier = new ++ s.state.frontier ∧
      ((∃ start ∈ i.workflow.steps, new = [⟨start.id, none⟩]) ∨
        ∃ n ∈ i.workflow.steps, new = Session.visits i.workflow n.emitted) ∧
      ∀ fuel, i.operate fuel op s = toReply (i.advance fuel s') := by
  cases op with
  | run payload =>
    cases hstart : i.workflow.startStep? with
    | none => exact Or.inl ⟨s.started, _, rfl, fun fuel => run_of_noStart h hstart fuel payload⟩
    | some start =>
      exact Or.inr ⟨s.begun start payload, [_], s.begun_trail start payload, s.begun_frontier start payload,
        Or.inl ⟨start, List.mem_of_find?_eq_some hstart, rfl⟩, fun fuel => run_of_start h hstart fuel payload⟩
  | submit answer =>
    cases hid : s.state.current with
    | none => exact Or.inl ⟨_, _, rfl, fun fuel => submit_of_noCurrent h hid fuel answer⟩
    | some id =>
      cases step : i.workflow.step? id with
      | none => exact Or.inl ⟨_, _, rfl, fun fuel => submit_of_unknown h hid step fuel answer⟩
      | some n =>
        exact Or.inr ⟨(s.answered id answer).follow i.workflow n.emitted, _, rfl, rfl,
          Or.inr ⟨n, (Workflow.mem_of_step? step).1, rfl⟩, fun fuel => submit_of_step h hid step fuel answer⟩

/-- The outcome of an operation that comes in time can be read off the state that it leaves. -/
theorem operate_outcome {op : Operation} {r : Result Outcome} (allowed : s.state.status = op.allowedIn)
    (h : i.operate fuel op s = some (r, t)) : ∃ o, r = .ok o ∧ i.outcome? t.state = some o := by
  rcases operate_cases allowed with ⟨s', f, -, replies⟩ | ⟨s', new, -, -, -, replies⟩
  · rw [replies] at h
    obtain ⟨o, ok, fails⟩ := toReply_eq_some h
    cases Option.some.inj fails
    exact ⟨_, ok, rfl⟩
  · rw [replies] at h
    obtain ⟨o, ok, advances⟩ := toReply_eq_some h
    exact ⟨o, ok, advance_outcome advances⟩

/-! ## Driving -/

theorem answerAll_moves {τ : Type} {input : InputChannel τ} {rounds : Nat} {o : Outcome} {x y : τ}
    {r : Result Outcome} (h : i.answerAll input fuel rounds o s x = some (r, t, y)) : ReflTransGen i.Move s t := by
  induction rounds generalizing o s x with
  | zero => cases h
  | succ rounds ih =>
    cases o with
    | finished => cases Option.some.inj h; exact ReflTransGen.refl
    | failed _ => cases Option.some.inj h; exact ReflTransGen.refl
    | awaitingInput node prompt =>
      simp only [answerAll] at h
      split at h
      case h_1 f x' hinput => cases Option.some.inj h; exact ReflTransGen.refl
      case h_2 answer x' hinput =>
        split at h
        case h_1 => cases h
        case h_2 f s' hsubmit => cases Option.some.inj h; exact submit_moves hsubmit
        case h_3 o s' hsubmit => exact (submit_moves hsubmit).trans (ih h)

/-- Driving a run starts it without a payload unless it is under way or at its end. -/
theorem drive_cases {τ : Type} {input : InputChannel τ} {x y : τ} {r : Result Outcome}
    (h : i.drive input fuel s x = some (r, t, y)) :
    (s.state.status ≠ .idle ∧ ReflTransGen i.Move s t) ∨
    ∃ r' s', i.run fuel .null s = some (r', s') ∧ ReflTransGen i.Move s' t := by
  unfold drive at h
  split at h
  case h_1 o ho =>
    refine Or.inl ⟨fun idle => ?_, answerAll_moves h⟩
    rw [outcome?, idle] at ho
    cases ho
  case h_2 ho =>
    split at h
    case h_1 => cases h
    case h_2 f s' hrun => cases Option.some.inj h; exact Or.inr ⟨_, _, hrun, ReflTransGen.refl⟩
    case h_3 o s' hrun => exact Or.inr ⟨_, _, hrun, answerAll_moves h⟩

/-! ## The sessions of a run -/

/-- The sessions that operations lead to, and the payload that the run was started with. -/
inductive Reached (i : Interpreter σ) : Option Json → Session σ → Prop
  | new (runId : String) (world : σ) : Reached i none { state := { runId }, world }
  | run {p : Option Json} {s t : Session σ} {fuel : Nat} {payload : Json} {r : Result Outcome} :
      Reached i p s → i.run fuel payload s = some (r, t) →
      Reached i (if s.state.status = .idle then some payload else p) t
  | submit {p : Option Json} {s t : Session σ} {fuel : Nat} {answer : String} {r : Result Outcome} :
      Reached i p s → i.submit fuel answer s = some (r, t) → Reached i p t
  | drive {p : Option Json} {s t : Session σ} {τ : Type} {input : InputChannel τ} {fuel : Nat} {x y : τ}
      {r : Result Outcome} :
      Reached i p s → i.drive input fuel s x = some (r, t, y) →
      Reached i (if s.state.status = .idle then some .null else p) t
  | restart {p : Option Json} {s : Session σ} (runId : String) : Reached i p s → Reached i none (s.restart runId)

inductive Passed (i : Interpreter σ) : Option Json → Session σ → Prop
  | new (runId : String) (world : σ) (events : List RunEvent) : Passed i none { state := { runId }, world, events }
  | noStart {p : Option Json} {s : Session σ} (payload : Json) :
      Passed i p s → s.state.status = .idle → i.workflow.startStep? = none →
      Passed i (some payload) (s.started.failWith .noStart).2
  | begin {p : Option Json} {s : Session σ} {start : Step} (payload : Json) :
      Passed i p s → s.state.status = .idle → i.workflow.startStep? = some start →
      Passed i (some payload) (s.begun start payload)
  | move {p : Option Json} {s t : Session σ} : Passed i p s → i.Move s t → Passed i p t

theorem Passed.moves {p : Option Json} (hs : i.Passed p s) (h : ReflTransGen i.Move s t) : i.Passed p t := by
  induction h with
  | refl => exact hs
  | tail _ h ih => exact ih.move h

theorem Passed.run {p : Option Json} (hs : i.Passed p s) {payload : Json} {r : Result Outcome}
    (h : i.run fuel payload s = some (r, t)) : i.Passed (if s.state.status = .idle then some payload else p) t := by
  rcases run_cases h with ⟨idle, rfl⟩ | ⟨idle, hstart, rfl⟩ | ⟨start, idle, hstart, moves⟩
  · rw [if_neg idle]; exact hs
  · rw [if_pos idle]; exact hs.noStart payload idle hstart
  · rw [if_pos idle]; exact (hs.begin payload idle hstart).moves moves

/-- Operations leave a run only in sessions that it passes through by moves. -/
theorem Reached.passed {p : Option Json} (h : i.Reached p s) : i.Passed p s := by
  induction h with
  | new runId world => exact .new runId world []
  | run _ h ih => exact ih.run h
  | submit _ h ih => exact ih.moves (submit_moves h)
  | drive _ h ih =>
    rcases drive_cases h with ⟨idle, moves⟩ | ⟨r', s', hrun, moves⟩
    · rw [if_neg idle]; exact ih.moves moves
    · exact (ih.run hrun).moves moves
  | restart runId _ ih => exact .new runId _ _

end Interpreter
end EventFlow
