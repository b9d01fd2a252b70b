/-
  EventFlow.Proofs.Run.Termination — every operation comes to an end.

  Visits are made again and again where ways part and meet, so a visit is weighed by how many may
  follow from it. Where every circle has a step that waits for a human, steps have ranks that fall
  on the way to the next one that waits (`exists_rank`). With `k` visits set off by a step at most,
  one of rank `r` weighs `(k + 1) ^ r`: more than all that it sets off. So the weight of the visits
  still to make falls with every visit, whatever the services reply.

  Proved:
  - `load_visits_lt`: what a step sets off weighs less than the visit of the step.
  - `stopsWithin_load`: making visits stops after as many as the pending ones weigh.
  - `operate_terminates`: so does every operation, within a bound that the workflow and the number
    of pending visits give.
-/

import EventFlow.Proofs.Run.Moves
import EventFlow.Proofs.Workflow.Circles
import Mathlib.Algebra.Order.BigOperators.Group.List
import Mathlib.Algebra.Order.Ring.Nat

namespace EventFlow

variable {σ : Type}

namespace Workflow

/-- The most visits that a step of the workflow sets off. -/
def fanOut (w : Workflow) : Nat := w.steps.foldr (fun n most => max (Session.visits w n.emitted).length most) 0

/-- The most visits that an operation makes on a run with so many pending ones. -/
def visitBound (w : Workflow) (pending : Nat) : Nat := (pending + w.fanOut + 1) * (w.fanOut + 1) ^ w.steps.length

variable {w : Workflow}

theorem le_foldr_max {α : Type} (f : α → Nat) {xs : List α} {a : α} (h : a ∈ xs) :
    f a ≤ xs.foldr (fun x most => max (f x) most) 0 := by
  induction xs with
  | nil => cases h
  | cons x xs ih =>
    rw [List.foldr_cons]
    rcases List.mem_cons.mp h with rfl | h
    · exact Nat.le_max_left _ _
    · exact Nat.le_trans (ih h) (Nat.le_max_right _ _)

theorem length_visits_le_fanOut {n : Step} (hn : n ∈ w.steps) : (Session.visits w n.emitted).length ≤ w.fanOut :=
  le_foldr_max (fun n => (Session.visits w n.emitted).length) hn

theorem mem_visits_iff {events : List Event} {v : Visit} :
    v ∈ Session.visits w events ↔ ∃ e ∈ events, ∃ c ∈ w.consumersOf e, ⟨c.id, some e⟩ = v := by
  simp only [Session.visits, List.mem_flatMap, List.mem_map]

theorem visits_sublist {events events' : List Event} (h : events.Sublist events') :
    (Session.visits w events).Sublist (Session.visits w events') := h.flatMap _

/-! ## What visits weigh -/

/-- How many visits may be made because of this one, if steps have these ranks. -/
def weight (w : Workflow) (rank : Step → Nat) (v : Visit) : Nat :=
  (w.fanOut + 1) ^ ((w.step? v.node).elim 0 rank)

def load (w : Workflow) (rank : Step → Nat) (vs : List Visit) : Nat := (vs.map (w.weight rank)).sum

variable {rank : Step → Nat}

theorem weight_pos (v : Visit) : 0 < w.weight rank v := Nat.pow_pos (Nat.succ_pos _)

theorem weight_le (bounded : ∀ s, rank s ≤ w.steps.length) (v : Visit) :
    w.weight rank v ≤ (w.fanOut + 1) ^ w.steps.length := by
  refine Nat.pow_le_pow_right (Nat.succ_pos _) ?_
  cases w.step? v.node with
  | none => exact Nat.zero_le _
  | some n => exact bounded n

theorem load_cons (v : Visit) (vs : List Visit) : w.load rank (v :: vs) = w.weight rank v + w.load rank vs := by
  rw [load, List.map_cons, List.sum_cons, load]

theorem load_append (vs vs' : List Visit) : w.load rank (vs ++ vs') = w.load rank vs + w.load rank vs' := by
  rw [load, List.map_append, List.sum_append, load, load]

/-- Where each visit weighs a certain amount at most, the load is at most that for each. -/
theorem load_le {limit : Nat} {vs : List Visit} (h : ∀ v ∈ vs, w.weight rank v ≤ limit) :
    w.load rank vs ≤ vs.length * limit := by
  have sum := List.sum_le_card_nsmul (vs.map (w.weight rank)) limit (List.forall_mem_map.mpr h)
  rwa [List.length_map, Nat.nsmul_eq_mul] at sum

/-- What a step that does not wait sets off weighs less than the visit of the step. -/
theorem load_visits_lt (distinct : (w.steps.map (·.id)).Nodup) (falls : w.RanksFall rank) {v : Visit} {n : Step}
    (step : w.step? v.node = some n) (hkind : n.kind ≠ .userInput) {events : List Event}
    (sub : events.Sublist n.emitted) : w.load rank (Session.visits w events) < w.weight rank v := by
  obtain ⟨hn, -⟩ := mem_of_step? step
  have lower : ∀ v' ∈ Session.visits w events, ∃ c, w.step? v'.node = some c ∧ rank c < rank n := by
    intro v' hv'
    obtain ⟨e, he, c, hc, rfl⟩ := mem_visits_iff.mp hv'
    obtain ⟨hcs, hin⟩ := mem_consumersOf_iff.mp hc
    exact ⟨c, step?_eq_of_mem distinct hcs,
      falls n hn c hcs (Step.feeds_iff.mpr ⟨e, hin, sub.subset he⟩) hkind⟩
  cases hr : rank n with
  | zero =>
    have none : Session.visits w events = [] := List.eq_nil_iff_forall_not_mem.mpr fun v' hv' => by
      obtain ⟨c, -, hc⟩ := lower v' hv'
      omega
    rw [none]
    exact weight_pos v
  | succ r =>
    have light : ∀ v' ∈ Session.visits w events, w.weight rank v' ≤ (w.fanOut + 1) ^ r := by
      intro v' hv'
      obtain ⟨c, hc, hlt⟩ := lower v' hv'
      rw [weight, hc]
      exact Nat.pow_le_pow_right (Nat.succ_pos _) (by rw [Option.elim_some]; omega)
    have short : (Session.visits w events).length ≤ w.fanOut :=
      (visits_sublist sub).length_le.trans (length_visits_le_fanOut hn)
    calc w.load rank (Session.visits w events)
        ≤ (Session.visits w events).length * (w.fanOut + 1) ^ r := load_le light
      _ ≤ w.fanOut * (w.fanOut + 1) ^ r := Nat.mul_le_mul_right _ short
      _ < (w.fanOut + 1) * (w.fanOut + 1) ^ r :=
        Nat.mul_lt_mul_of_pos_right (Nat.lt_succ_self _) (Nat.pow_pos (Nat.succ_pos _))
      _ = w.weight rank v := by rw [weight, step, Option.elim_some, hr, Nat.pow_succ, Nat.mul_comm]

end Workflow

namespace Interpreter

variable {i : Interpreter σ} {s : Session σ} {rank : Step → Nat}

/-- A visit that goes on leaves less to do, and one more step behind. -/
theorem Visits.load_lt (distinct : (i.workflow.steps.map (·.id)).Nodup) (falls : i.workflow.RanksFall rank)
    {v : Visit} {rest : List Visit} {n : Step} {e : Effect} {world : σ} (visits : i.Visits s v rest n e world)
    {t : Session σ} (proceeds : i.turn n (s.entered rest n world) e = .proceed t) :
    i.workflow.load rank t.state.frontier < i.workflow.load rank s.state.frontier ∧
      t.state.trail.length = s.state.trail.length + 1 := by
  have hkind : n.kind ≠ .userInput := by
    intro hkind
    obtain ⟨prompt, waits⟩ := effect_userInput (i := i) hkind
    obtain ⟨rfl, -⟩ := Prod.mk.inj (visits.effect.symm.trans waits)
    cases proceeds
  have follows : ∃ events : List Event, events.Sublist n.emitted ∧
      t.state.frontier = Session.visits i.workflow events ++ rest ∧ t.state.trail = s.state.trail ++ [n.id] := by
    cases e with
    | wait _ => cases proceeds
    | fail _ => cases proceeds
    | complete value events => cases proceeds; exact ⟨events, sublist_emitted_of_complete visits.effect, rfl, rfl⟩
    | pass events =>
      cases proceeds
      refine ⟨events, ?_, rfl, rfl⟩
      rcases (pass_cases visits.effect).2 with ⟨-, rfl⟩ | ⟨-, rfl⟩
      · exact List.Sublist.refl _
      · exact List.nil_sublist _
  obtain ⟨events, sub, frontier, trail⟩ := follows
  have less := Workflow.load_visits_lt distinct falls visits.step hkind sub
  rw [frontier, trail, visits.next, Workflow.load_append, Workflow.load_cons, List.length_append]
  exact ⟨by omega, rfl⟩

def StopsWithin (i : Interpreter σ) (limit : Nat) (s : Session σ) : Prop :=
  ∃ o t, (∀ fuel, limit < fuel → i.advance fuel s = some (o, t)) ∧
    t.state.trail.length ≤ s.state.trail.length + limit

theorem stopsWithin_of_advance {o : Outcome} {t : Session σ} {limit : Nat}
    (h : ∀ fuel, i.advance (fuel + 1) s = some (o, t)) (trail : t.state.trail.length ≤ s.state.trail.length + limit) :
    i.StopsWithin limit s := by
  refine ⟨o, t, fun fuel enough => ?_, trail⟩
  cases fuel with
  | zero => cases enough
  | succ fuel => exact h fuel

/-- One visit more is made before those that follow from it. -/
theorem StopsWithin.of_proceed {v : Visit} {rest : List Visit} {n : Step} {e : Effect} {world : σ} {t : Session σ}
    {fewer limit : Nat} (visits : i.Visits s v rest n e world) (turn : i.turn n (s.entered rest n world) e = .proceed t)
    (trail : t.state.trail.length = s.state.trail.length + 1) (less : fewer < limit) (h : i.StopsWithin fewer t) :
    i.StopsWithin limit s := by
  obtain ⟨o, t', advances, visited⟩ := h
  refine ⟨o, t', fun fuel enough => ?_, by omega⟩
  cases fuel with
  | zero => cases enough
  | succ fuel =>
    rw [advance_proceed visits turn]
    exact advances fuel (by omega)

/-- Making visits stops after as many as the pending ones weigh, at most. -/
theorem stopsWithin_load (distinct : (i.workflow.steps.map (·.id)).Nodup) (falls : i.workflow.RanksFall rank)
    (s : Session σ) : i.StopsWithin (i.workflow.load rank s.state.frontier) s := by
  induction hload : i.workflow.load rank s.state.frontier using Nat.strong_induction_on generalizing s with
  | h load ih =>
  subst hload
  rcases i.next_cases s with next | ⟨v, rest, next, step⟩ | ⟨v, rest, n, e, world, visits⟩
  · exact stopsWithin_of_advance (advance_nil next) (Nat.le_add_right _ _)
  · exact stopsWithin_of_advance (advance_unknown next step) (Nat.le_add_right _ _)
  · -- Two effects go on, with less to do; the others stop right after the visit.
    have goesOn : ∀ t, i.turn n (s.entered rest n world) e = .proceed t →
        i.StopsWithin (i.workflow.load rank s.state.frontier) s := by
      intro t turn
      obtain ⟨less, trail⟩ := visits.load_lt distinct falls turn
      exact .of_proceed visits turn trail less (ih _ less t rfl)
    have one : (s.state.trail ++ [n.id]).length ≤ s.state.trail.length + i.workflow.load rank s.state.frontier := by
      rw [visits.next, Workflow.load_cons, List.length_append, List.length_singleton]
      have heavy : 0 < i.workflow.weight rank v := Workflow.weight_pos v
      omega
    cases e with
    | pass events => exact goesOn _ rfl
    | complete value events => exact goesOn _ rfl
    | wait prompt => exact stopsWithin_of_advance (advance_wait visits) one
    | fail f => exact stopsWithin_of_advance (advance_fail visits) one

/-- From any session, starting a run and answering it make only so many visits before the run
    finishes, waits or fails, whatever the services reply. -/
theorem operate_terminates {i : Interpreter σ} (distinct : (i.workflow.steps.map (·.id)).Nodup)
    (circles : i.workflow.CirclesWait) (s : Session σ) (op : Operation) :
    ∃ r t, (∀ fuel, i.workflow.visitBound s.state.frontier.length < fuel → i.operate fuel op s = some (r, t)) ∧
      t.state.trail.length ≤ s.state.trail.length + i.workflow.visitBound s.state.frontier.length ∧
      (s.state.status = op.allowedIn → ∃ o, r = .ok o) := by
  by_cases allowed : s.state.status = op.allowedIn
  · rcases operate_cases (i := i) allowed with ⟨s', f, trail, replies⟩ | ⟨s', new, trail, frontier, first, replies⟩
    · refine ⟨.ok (s'.failWith f).1, (s'.failWith f).2, fun fuel _ => replies fuel, ?_, fun _ => ⟨_, rfl⟩⟩
      show s'.state.trail.length ≤ _
      rw [trail]
      exact Nat.le_add_right _ _
    · obtain ⟨rank, bounded, falls⟩ := Workflow.exists_rank circles
      obtain ⟨o, t, advances, visited⟩ := stopsWithin_load distinct falls s'
      have few : new.length ≤ i.workflow.fanOut + 1 := by
        rcases first with ⟨start, -, rfl⟩ | ⟨n, hn, rfl⟩
        · exact Nat.le_add_left _ _
        · exact Nat.le_succ_of_le (Workflow.length_visits_le_fanOut hn)
      have within : i.workflow.load rank s'.state.frontier ≤ i.workflow.visitBound s.state.frontier.length := by
        refine (Workflow.load_le fun v _ => Workflow.weight_le bounded v).trans (Nat.mul_le_mul_right _ ?_)
        rw [frontier, List.length_append]
        omega
      rw [trail] at visited
      refine ⟨.ok o, t, fun fuel enough => ?_, by omega, fun _ => ⟨o, rfl⟩⟩
      rw [replies, advances fuel (by omega)]
      rfl
  · exact ⟨_, s, fun fuel _ => operate_refused allowed fuel, Nat.le_add_right _ _, fun h => absurd h allowed⟩

/-- A question is reached on two ways, and each answer leads back to where they part. -/
theorem askAgain_terminates :
    let w : Workflow := {
      steps := [
        ⟨"start", .start none, none, some (.single ⟨"in"⟩)⟩,
        ⟨"split", .splitter none none, some (.many [⟨"in"⟩, ⟨"again"⟩]), some (.many [⟨"left"⟩, ⟨"right"⟩])⟩,
        ⟨"join", .collector none none, some (.many [⟨"left"⟩, ⟨"right"⟩]), some (.single ⟨"ask"⟩)⟩,
        ⟨"ask", .userInput { prompt := some "More?" }, some (.single ⟨"ask"⟩), some (.single ⟨"again"⟩)⟩] }
    let i : Interpreter Unit := ⟨w, ⟨fun _ u => (.ok "", u), fun _ u => (.ok "", u)⟩, defaultMaxTokens⟩
    let s : Session Unit := { state := { runId := "first" }, world := () }
    (w.steps.map (·.id)).Nodup ∧ w.CirclesWait ∧
    ∃ r t, (∀ fuel, 243 < fuel → i.run fuel (.str "go") s = some (r, t)) ∧ t.state.trail.length ≤ 243 ∧
      ∃ o, r = .ok o := by
  intro w i s
  have distinct : (w.steps.map (·.id)).Nodup := by decide
  have circles : w.CirclesWait := Workflow.circlesWait_of_rank (fun n => w.steps.idxOf n) (by decide)
  obtain ⟨r, t, returns, visited, ok⟩ := operate_terminates (i := i) distinct circles s (.run (.str "go"))
  have bound : i.workflow.visitBound s.state.frontier.length = 243 := by decide
  rw [bound] at returns visited
  exact ⟨distinct, circles, r, t, returns, Nat.le_trans visited (by decide), ok rfl⟩

end Interpreter
end EventFlow
