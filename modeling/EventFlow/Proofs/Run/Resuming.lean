/-
  EventFlow.Proofs.Run.Resuming — runs that are saved and loaded on the way.

  A run goes on by moves, and between any two of them it may be saved and loaded (`Onward`). Loading
  gives back the state and the world, and only the events published so far are gone, which no move
  depends on. So a run that is loaded on the way passes through the same sessions as one that is not,
  but for these events.

  Proved:
  - `Move.after`: a move is the same whatever was published before.
  - `Resumed.passed_after`: a session that a run comes to with loading, it comes to without.
  - `Resumed.act`: operations, driving and restarts lead from such sessions to such sessions.
-/

import EventFlow.Proofs.Run.Reload

namespace EventFlow

open Relation (ReflTransGen)

variable {σ : Type}

namespace Interpreter

inductive Onward (i : Interpreter σ) (p : Option Json) (s : Session σ) : Session σ → Prop
  | move {t : Session σ} (move : i.Move s t) : Onward i p s t
  | reload {t : Session σ} (payload : ∀ v ∈ p, v.FreeForm) (loads : s.reload = .ok t) : Onward i p s t

inductive Resumed (i : Interpreter σ) : Option Json → Session σ → Prop
  | new (runId : String) (world : σ) (events : List RunEvent) : Resumed i none { state := { runId }, world, events }
  | noStart {p : Option Json} {s : Session σ} (payload : Json) :
      Resumed i p s → s.state.status = .idle → i.workflow.startStep? = none →
      Resumed i (some payload) (s.started.failWith .noStart).2
  | begin {p : Option Json} {s : Session σ} {start : Step} (payload : Json) :
      Resumed i p s → s.state.status = .idle → i.workflow.startStep? = some start →
      Resumed i (some payload) (s.begun start payload)
  | onward {p : Option Json} {s t : Session σ} : Resumed i p s → i.Onward p s t → Resumed i p t

variable {i : Interpreter σ} {s t : Session σ} {p : Option Json}

/-! ## Without loading -/

theorem Move.after (h : i.Move s t) (earlier : List RunEvent) : i.Move (s.after earlier) (t.after earlier) := by
  cases h with
  | pass running visits =>
    rw [← Session.follow_after, ← Session.entered_after]
    exact .pass running (visits.after earlier)
  | complete running visits =>
    rw [← Session.follow_after, ← Session.complete_after, ← Session.entered_after]
    exact .complete running (visits.after earlier)
  | @wait v rest n prompt world running visits =>
    have moved := Move.wait (s := s.after earlier) running (visits.after earlier)
    rwa [Session.entered_after, Session.pauseAt_after] at moved
  | @fail v rest n f world running visits =>
    have moved := Move.fail (s := s.after earlier) running (visits.after earlier)
    rwa [Session.entered_after, Session.failWith_after] at moved
  | unknown running next step =>
    have moved := Move.unknown (s := s.after earlier) running next step
    rwa [Session.withState_after, Session.failWith_after] at moved
  | finish running next =>
    have moved := Move.finish (i := i) (s := s.after earlier) running next
    rwa [Session.finish_after] at moved
  | answer waiting current step =>
    rw [← Session.follow_after, ← Session.answered_after]
    exact .answer waiting current step
  | @lost f waiting current =>
    have moved := Move.lost (f := f) (s := s.after earlier) waiting current
    rwa [Session.failWith_after] at moved

/-- A run that can be loaded is the run that was saved, but for the events published so far. -/
theorem Passed.reload_after {earlier : List RunEvent} (h : i.Passed p (s.after earlier)) (payload : ∀ v ∈ p, v.FreeForm)
    (loads : s.reload = .ok t) : t = { state := s.state, world := s.world } := by
  have recorded : ∀ v ∈ s.state.outputs.values, v.FreeForm := h.freeForm payload
  rw [Session.reload] at loads
  obtain ⟨loaded, reads, rfl⟩ := Reader.map_ok loads
  rw [RunState.eq_of_reread recorded reads]

theorem Resumed.passed_after (h : i.Resumed p s) : ∃ earlier, i.Passed p (s.after earlier) := by
  induction h with
  | new runId world events => exact ⟨[], .new runId world events⟩
  | @noStart p s payload _ idle hstart ih =>
    obtain ⟨earlier, passed⟩ := ih
    have started := passed.noStart payload idle hstart
    rw [Session.started_after, Session.failWith_after] at started
    exact ⟨earlier, started⟩
  | @begin p s start payload _ idle hstart ih =>
    obtain ⟨earlier, passed⟩ := ih
    exact ⟨earlier, Session.begun_after .. ▸ passed.begin payload idle hstart⟩
  | @onward p s t _ onward ih =>
    obtain ⟨earlier, passed⟩ := ih
    cases onward with
    | move move => exact ⟨earlier, passed.move (move.after earlier)⟩
    | reload payload loads =>
      cases passed.reload_after payload loads
      -- The events that loading has lost are put before those to come.
      refine ⟨earlier ++ s.events, ?_⟩
      rw [Session.after, List.append_nil]
      exact passed

/-! ## Actions -/

theorem Resumed.onwards (h : i.Resumed p s) (later : ReflTransGen (i.Onward p) s t) : i.Resumed p t := by
  induction later with
  | refl => exact h
  | tail _ onward ih => exact ih.onward onward

theorem Resumed.moves (h : i.Resumed p s) (moves : ReflTransGen i.Move s t) : i.Resumed p t :=
  h.onwards (ReflTransGen.mono (fun _ _ => .move) _ _ moves)

theorem Resumed.run {fuel : Nat} {payload : Json} {r : Result Outcome} (h : i.Resumed p s)
    (done : i.run fuel payload s = some (r, t)) : i.Resumed (if s.state.status = .idle then some payload else p) t := by
  rcases run_cases done with ⟨idle, rfl⟩ | ⟨idle, hstart, rfl⟩ | ⟨start, idle, hstart, moves⟩
  · rw [if_neg idle]
    exact h
  · rw [if_pos idle]
    exact h.noStart payload idle hstart
  · rw [if_pos idle]
    exact (h.begin payload idle hstart).moves moves

/-- The payload of a run after an action: that of the run which the action has begun, if it has. -/
def Action.payload (status : RunStatus) (p : Option Json) : Action → Option Json
  | .operate (.run payload) => if status = .idle then some payload else p
  | .drive => if status = .idle then some .null else p
  | .restart _ => none
  | .operate (.submit _) | .outcome => p

theorem Resumed.act {τ : Type} {input : InputChannel τ} {fuel : Nat} {action : Action} {x y : τ}
    {r : Option (Result Outcome)} (h : i.Resumed p s) (done : i.act input fuel action s x = some (r, t, y)) :
    i.Resumed (action.payload s.state.status p) t := by
  cases action with
  | operate op =>
    obtain ⟨⟨reply, u⟩, operated, result⟩ := Option.map_eq_some_iff.mp done
    cases result
    cases op with
    | run payload => exact h.run operated
    | submit answer => exact h.moves (submit_moves operated)
  | drive =>
    obtain ⟨⟨reply, u, z⟩, driven, result⟩ := Option.map_eq_some_iff.mp done
    cases result
    rcases drive_cases driven with ⟨idle, moves⟩ | ⟨r', s', started, moves⟩
    · rw [Action.payload, if_neg idle]
      exact h.moves moves
    · exact (h.run started).moves moves
  | restart runId =>
    cases Option.some.inj done
    exact .new runId _ _
  | outcome =>
    cases Option.some.inj done
    exact h

end Interpreter
end EventFlow
