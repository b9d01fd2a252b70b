/-
  EventFlow.Proofs.Run.Reload — a run that is saved and loaded goes on as if it had not been.

  A loaded session has the state that was saved, in the same world, but nobody has been told of its
  events. What a run does next does not depend on the events so far, so the two sessions stay the
  same but for those (`Session.after`): in each action the same replies, states and worlds, and the
  same new events. The worlds hold what the services and the human were asked, if they keep it.

  Proved:
  - `advance_after` / `operate_after` / `drive_after`: visits and operations.
  - `course_after`: a list of actions, by induction on it.
  - `reload_transparent`: every run that operations lead to is read as it was written, and goes on
    alike.
-/

import EventFlow.Proofs.Run.Saved

namespace EventFlow

variable {σ : Type}

namespace Session

def after (s : Session σ) (earlier : List RunEvent) : Session σ := { s with events := earlier ++ s.events }

variable (s : Session σ) (earlier : List RunEvent)

theorem after_state : (s.after earlier).state = s.state := rfl

theorem withState_after (change : RunState → RunState) :
    (s.after earlier).withState change = (s.withState change).after earlier := rfl

theorem publish_after (e : RunEvent) : (s.after earlier).publish e = (s.publish e).after earlier := by
  rw [publish, publish, after, after, List.append_assoc]

theorem complete_after (n : Step) (value : Json) :
    (s.after earlier).complete n value = (s.complete n value).after earlier := publish_after (s.record n.id value) ..

theorem follow_after (w : Workflow) (events : List Event) :
    (s.after earlier).follow w events = (s.follow w events).after earlier := rfl

theorem entered_after (rest : List Visit) (n : Step) (world : σ) :
    (s.after earlier).entered rest n world = (s.entered rest n world).after earlier := by
  have enter := publish_after
    ((s.withState fun st => { st with frontier := rest }).withState fun st =>
      { st with current := some n.id, trail := st.trail ++ [n.id] }) earlier (.nodeEntered n.id n.kind)
  exact congrArg (fun t : Session σ => { t with world }) enter

theorem started_after : (s.after earlier).started = s.started.after earlier :=
  publish_after (s.withState fun st => { st with status := .running }) ..

theorem begun_after (start : Step) (payload : Json) :
    (s.after earlier).begun start payload = (s.begun start payload).after earlier := by
  unfold begun
  rw [started_after]
  cases payload.isNull <;> rfl

theorem answered_after (id answer : String) :
    (s.after earlier).answered id answer = (s.answered id answer).after earlier :=
  publish_after ((s.record id (.str answer)).withState fun st => { st with status := .running }) ..

def addEvents {α : Type} (earlier : List RunEvent) (x : α × Session σ) : α × Session σ := (x.1, x.2.after earlier)

theorem failWith_after (f : Failure) : (s.after earlier).failWith f = addEvents earlier (s.failWith f) := by
  simp only [failWith, withState_after, publish_after, after_state, addEvents]

theorem finish_after : (s.after earlier).finish = addEvents earlier s.finish := by
  simp only [finish, withState_after, publish_after, after_state, addEvents]

theorem pauseAt_after (node prompt : String) :
    (s.after earlier).pauseAt node prompt = addEvents earlier (s.pauseAt node prompt) := by
  simp only [pauseAt, withState_after, publish_after, addEvents]

end Session

open Session (addEvents)

namespace Interpreter

variable {i : Interpreter σ} (earlier : List RunEvent)

theorem Visits.after {s : Session σ} {v : Visit} {rest : List Visit} {n : Step} {e : Effect} {world : σ}
    (h : i.Visits s v rest n e world) : i.Visits (s.after earlier) v rest n e world := ⟨h.next, h.step, h.effect⟩

theorem advance_after (fuel : Nat) (s : Session σ) :
    i.advance fuel (s.after earlier) = (i.advance fuel s).map (addEvents earlier) := by
  induction fuel generalizing s with
  | zero => rfl
  | succ fuel ih =>
    rcases i.next_cases s with next | ⟨v, rest, next, step⟩ | ⟨v, rest, n, e, world, visits⟩
    · rw [advance_nil next, advance_nil (s := s.after earlier) next, s.finish_after]
      rfl
    · rw [advance_unknown next step, advance_unknown (s := s.after earlier) next step, Session.withState_after,
        Session.failWith_after]
      rfl
    · -- The step's effect tells where its visit goes, on both sides alike.
      have entered := s.entered_after earlier rest n world
      cases e with
      | pass events =>
        rw [advance_proceed visits rfl, advance_proceed (visits.after earlier) rfl, entered, Session.follow_after, ih]
      | complete value events =>
        rw [advance_proceed visits rfl, advance_proceed (visits.after earlier) rfl, entered, Session.complete_after,
          Session.follow_after, ih]
      | wait prompt =>
        rw [advance_wait visits, advance_wait (visits.after earlier), entered, Session.pauseAt_after]
        rfl
      | fail f =>
        rw [advance_fail visits, advance_fail (visits.after earlier), entered, Session.failWith_after]
        rfl

theorem toReply_after (x : Option (Outcome × Session σ)) :
    toReply (x.map (addEvents earlier)) = (toReply x).map (addEvents earlier) := by
  cases x <;> rfl

theorem operate_after (fuel : Nat) (op : Operation) (s : Session σ) :
    i.operate fuel op (s.after earlier) = (i.operate fuel op s).map (addEvents earlier) := by
  by_cases allowed : s.state.status = op.allowedIn
  · cases op with
    | run payload =>
      show i.run fuel payload (s.after earlier) = (i.run fuel payload s).map _
      cases hstart : i.workflow.startStep? with
      | none =>
        rw [run_of_noStart allowed hstart, run_of_noStart (s := s.after earlier) allowed hstart, Session.started_after,
          Session.failWith_after]
        rfl
      | some start =>
        rw [run_of_start allowed hstart, run_of_start (s := s.after earlier) allowed hstart, Session.begun_after,
          advance_after, toReply_after]
    | submit answer =>
      show i.submit fuel answer (s.after earlier) = (i.submit fuel answer s).map _
      cases hid : s.state.current with
      | none =>
        rw [submit_of_noCurrent allowed hid, submit_of_noCurrent (s := s.after earlier) allowed hid,
          Session.failWith_after]
        rfl
      | some id =>
        cases step : i.workflow.step? id with
        | none =>
          rw [submit_of_unknown allowed hid step, submit_of_unknown (s := s.after earlier) allowed hid step,
            Session.failWith_after]
          rfl
        | some n =>
          rw [submit_of_step allowed hid step, submit_of_step (s := s.after earlier) allowed hid step,
            Session.answered_after, Session.follow_after, advance_after, toReply_after]
  · rw [operate_refused allowed, operate_refused (s := s.after earlier) allowed]
    rfl

/-! ## Driving -/

section

variable {τ : Type} (input : InputChannel τ)

def addTold {ρ : Type} (x : ρ × Session σ × τ) : ρ × Session σ × τ := (x.1, x.2.1.after earlier, x.2.2)

theorem answerAll_after (fuel rounds : Nat) (o : Outcome) (s : Session σ) (x : τ) :
    i.answerAll input fuel rounds o (s.after earlier) x =
      (i.answerAll input fuel rounds o s x).map (addTold earlier) := by
  induction rounds generalizing o s x with
  | zero => rfl
  | succ rounds ih =>
    cases o with
    | finished => rfl
    | failed _ => rfl
    | awaitingInput node prompt =>
      simp only [answerAll]
      obtain ⟨reply, x⟩ := input prompt x
      cases reply with
      | error f => rfl
      | ok answer =>
        have submitted : i.submit fuel answer (s.after earlier) = (i.submit fuel answer s).map (addEvents earlier) :=
          operate_after earlier fuel (.submit answer) s
        simp only [submitted]
        cases i.submit fuel answer s with
        | none => rfl
        | some r =>
          obtain ⟨reply, s⟩ := r
          cases reply with
          | error f => rfl
          | ok o => exact ih o s x

theorem drive_after (fuel : Nat) (s : Session σ) (x : τ) :
    i.drive input fuel (s.after earlier) x = (i.drive input fuel s x).map (addTold earlier) := by
  unfold drive
  rw [Session.after_state]
  cases i.outcome? s.state with
  | some o => exact answerAll_after earlier input fuel fuel o s x
  | none =>
    have started : i.run fuel .null (s.after earlier) = (i.run fuel .null s).map (addEvents earlier) :=
      operate_after earlier fuel (.run .null) s
    simp only [started]
    cases i.run fuel .null s with
    | none => rfl
    | some r =>
      obtain ⟨reply, s⟩ := r
      cases reply with
      | error f => rfl
      | ok o => exact answerAll_after earlier input fuel fuel o s x

/-! ## Actions -/

inductive Action where
  | operate (op : Operation)
  | drive
  | restart (runId : String)
  | outcome

/-- What an action replies, if it replies, and where it leaves the run and those who answer. -/
def act (i : Interpreter σ) (fuel : Nat) : Action → Session σ → τ → Option (Option (Result Outcome) × Session σ × τ)
  | .operate op, s, x => (i.operate fuel op s).map fun (reply, s) => (some reply, s, x)
  | .drive, s, x => (i.drive input fuel s x).map fun (reply, s, x) => (some reply, s, x)
  | .restart runId, s, x => some (none, s.restart runId, x)
  | .outcome, s, x => some ((i.outcome? s.state).map .ok, s, x)

def course (i : Interpreter σ) (fuel : Nat) :
    List Action → Session σ → τ → Option (List (Option (Result Outcome) × Session σ × τ))
  | [], _, _ => some []
  | action :: actions, s, x => do
    let result ← i.act input fuel action s x
    return result :: (← course i fuel actions result.2.1 result.2.2)

theorem act_after (fuel : Nat) (action : Action) (s : Session σ) (x : τ) :
    i.act input fuel action (s.after earlier) x = (i.act input fuel action s x).map (addTold earlier) := by
  cases action with
  | operate op =>
    rw [act, operate_after, act, Option.map_map, Option.map_map]
    rfl
  | drive =>
    rw [act, drive_after, act, Option.map_map, Option.map_map]
    rfl
  | restart runId => rfl
  | outcome => rfl

/-- What follows does not depend on the events that came before. -/
theorem course_after (fuel : Nat) (actions : List Action) (s : Session σ) (x : τ) :
    i.course input fuel actions (s.after earlier) x =
      (i.course input fuel actions s x).map (List.map (addTold earlier)) := by
  induction actions generalizing s x with
  | nil => rfl
  | cons action actions ih =>
    rw [course, act_after, course]
    cases i.act input fuel action s x with
    | none => rfl
    | some result =>
      obtain ⟨reply, s, x⟩ := result
      show (do return _ :: (← i.course input fuel actions (s.after earlier) x)) = _
      rw [ih]
      show _ = (do return _ :: (← i.course input fuel actions s x) : Option _).map _
      cases i.course input fuel actions s x <;> rfl

end

end Interpreter

/-! ## Saving and loading -/

/-- The run is saved and loaded: its state is written and read, and it goes on in the same world. -/
def Session.reload (s : Session σ) : Except JsonFault (Session σ) :=
  s.state.reread.map fun state => { state, world := s.world }

namespace Interpreter

/-- Between any two operations a run can be saved and loaded: its state is read as it was written, and
    all that is done with it afterwards comes to the same as without. -/
theorem reload_transparent {i : Interpreter σ} {p : Option Json} {s : Session σ} (reached : i.Reached p s)
    (payload : ∀ v ∈ p, v.FreeForm) (shallow : s.state.toJson.depth ≤ Outline.depthLimit) :
    ∃ t, s.reload = .ok t ∧ t.state = s.state ∧ t.world = s.world ∧
      ∀ {τ : Type} (input : InputChannel τ) (fuel : Nat) (actions : List Action) (x : τ),
        i.course input fuel actions s x =
          (i.course input fuel actions t x).map (List.map (addTold s.events)) := by
  have reads := RunState.reread_eq (reached.passed.freeForm payload) shallow
  refine ⟨{ state := s.state, world := s.world }, by rw [Session.reload, reads]; rfl, rfl, rfl, ?_⟩
  intro τ input fuel actions x
  have whole : s = Session.after { state := s.state, world := s.world } s.events := by
    rw [Session.after, List.append_nil]
  rw [← course_after s.events input, ← whole]

/-- A run that waits is saved and loaded before it is driven on: the same question is asked, and the
    same prompt is put to the model. -/
theorem waiting_transparent :
    let w : Workflow := {
      steps := [
        ⟨"start", .start none, none, some (.single ⟨"in"⟩)⟩,
        ⟨"ask", .userInput { prompt := some "Name?" }, some (.single ⟨"in"⟩), some (.single ⟨"out"⟩)⟩,
        ⟨"greet", .promptLlm {}, some (.single ⟨"out"⟩), some (.single ⟨"end"⟩)⟩,
        ⟨"stop", .stop none, some (.single ⟨"end"⟩), none⟩] }
    let i : Interpreter (List ChatRequest) :=
      ⟨w, ⟨fun request asked => (.ok "Hello.", asked ++ [request]), fun _ asked => (.ok "", asked)⟩, defaultMaxTokens⟩
    let input : InputChannel (List String) := fun prompt told => (.ok "Ada", told ++ [prompt])
    let payload : Json := .obj [("name", .null), ("share", .num (.double (.finite false 1 (-1))))]
    payload.FreeForm ∧
      ∃ r s t, i.run 5 payload ⟨{ runId := "first" }, [], []⟩ = some (r, s) ∧ s.state.status = .awaitingInput ∧
        s.reload = .ok t ∧
        ∀ fuel, i.course input fuel [.outcome, .drive] s [] =
          (i.course input fuel [.outcome, .drive] t []).map (List.map (addTold s.events)) := by
  intro w i input payload
  have free : payload.FreeForm := by
    refine ⟨rfl, .obj fun e member => ?_⟩
    obtain rfl | rfl : e = ("name", .null) ∨ e = ("share", .num (.double (.finite false 1 (-1)))) := by
      simpa using member
    · exact .null
    · have text : Json.numberText (.double (.finite false 1 (-1))) = ['0', '.', '5'] := by decide +kernel
      exact .num (by rw [JsonNumber.ReadsBack, text]; with_unfolding_all rfl)
  have hrun : (i.run 5 payload ⟨{ runId := "first" }, [], []⟩).map
      (fun x => (x.2.state.status, x.2.state.toJson.depth)) = some (.awaitingInput, 3) := by decide +kernel
  obtain ⟨⟨r, s⟩, hrun, status⟩ := Option.map_eq_some_iff.mp hrun
  obtain ⟨waiting, depth⟩ := Prod.mk.inj status
  have reached : i.Reached (some payload) s := Reached.run (.new "first" []) hrun
  obtain ⟨t, loads, -, -, same⟩ := reload_transparent reached (fun v h => by cases h; exact free)
    (by rw [show s.state.toJson.depth = 3 from depth]; decide)
  exact ⟨free, r, s, t, hrun, waiting, loads, fun fuel => same input fuel _ []⟩

end Interpreter
end EventFlow
