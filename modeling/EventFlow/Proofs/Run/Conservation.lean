/-
  EventFlow.Proofs.Run.Conservation — no visit is lost and none is made twice.

  An event that is fired asks for one visit of each step that waits for it (`Workflow.deliveries`).
  Whatever happens in a run (pauses, failures, circles, ways that part again and again), these are
  the visits that have been made and those that are still to be made, each as often as its event was
  fired. Only the visit that a run begins with was asked for by no event.

  Proved:
  - `Conserved.visit`, `Conserved.answer`: a visit and an answer keep the balance.
  - `Traced.conserved`: so it holds over every run.
  - `count_deliveries`: where ids are distinct, an event is delivered to each consumer as often as it
    is fired.
  - `visits_conserved`: all of it; in a run that has finished, each consumer of an event was visited
    as often as the event was fired.
-/

import EventFlow.Proofs.Run.Trace
import Mathlib.Algebra.Order.Group.Multiset
import Mathlib.Data.Multiset.Count

namespace EventFlow

variable {σ : Type}

/-! ## What is asked for and what is made -/

/-- The step that a visit leads to and the event that led to it; the visit that a run begins with has none. -/
def Visit.arrival? (v : Visit) : Option (String × Event) := v.via.map fun e => (v.node, e)

def arrivals (vs : List Visit) : Multiset (String × Event) := (vs.filterMap Visit.arrival? : List (String × Event))

/-- The visits that fired events ask for: for each of them, one visit of each step that waits for it. -/
def Workflow.deliveries (w : Workflow) (fired : List Event) : Multiset (String × Event) :=
  (fired.flatMap fun e => (w.steps.filter (e ∈ ·.accepted)).map fun n => (n.id, e) : List (String × Event))

@[simp] theorem arrivals_nil : arrivals [] = 0 := rfl

@[simp] theorem arrivals_append (us vs : List Visit) : arrivals (us ++ vs) = arrivals us + arrivals vs := by
  simp [arrivals]

theorem arrivals_cons (v : Visit) (vs : List Visit) : arrivals (v :: vs) = arrivals [v] + arrivals vs :=
  arrivals_append [v] vs

namespace Workflow

variable {w : Workflow}

@[simp] theorem deliveries_append (es fs : List Event) :
    w.deliveries (es ++ fs) = w.deliveries es + w.deliveries fs := by
  simp [deliveries]

theorem deliveries_cons (e : Event) (es : List Event) :
    w.deliveries (e :: es) = w.deliveries [e] + w.deliveries es := deliveries_append [e] es

/-- The visits that a step puts before the others are the ones that its events ask for. -/
@[simp] theorem arrivals_visits (es : List Event) : arrivals (Session.visits w es) = w.deliveries es := by
  have consumers : ∀ e, w.consumersOf e = w.steps.filter (e ∈ ·.accepted) := fun e =>
    List.filter_congr fun n _ => by rw [Bool.eq_iff_iff, decide_eq_true_iff, Step.acceptsEvent_iff]
  simp only [arrivals, Session.visits, deliveries, List.filterMap_flatMap, List.filterMap_map, consumers]
  simp [Function.comp_def, Visit.arrival?]

/-- An event asks for one visit of a step that waits for it, and for none on account of another event. -/
theorem count_deliveries_singleton (distinct : (w.steps.map (·.id)).Nodup) {e : Event} {n : Step}
    (hn : n ∈ w.consumersOf e) (x : Event) : (w.deliveries [x]).count (n.id, e) = if x = e then 1 else 0 := by
  obtain ⟨member, accepted⟩ := mem_consumersOf_iff.mp hn
  rw [deliveries, List.flatMap_singleton]
  split
  case isTrue same =>
    subst same
    have ids : ((w.steps.filter (x ∈ ·.accepted)).map (·.id)).Nodup := (List.filter_sublist.map _).nodup distinct
    have pairs : ((w.steps.filter (x ∈ ·.accepted)).map fun n => (n.id, x)).Nodup :=
      List.Nodup.of_map Prod.fst (by rwa [List.map_map])
    exact Multiset.count_eq_one_of_mem (Multiset.coe_nodup.mpr pairs)
      (Multiset.mem_coe.mpr (List.mem_map_of_mem (List.mem_filter.mpr ⟨member, decide_eq_true accepted⟩)))
  case isFalse other =>
    refine Multiset.count_eq_zero.mpr fun h => ?_
    obtain ⟨m, -, h⟩ := List.mem_map.mp (Multiset.mem_coe.mp h)
    exact other (Prod.mk.inj h).2

/-- Where ids are distinct, an event is delivered to each of its consumers as often as it is fired. -/
theorem count_deliveries (distinct : (w.steps.map (·.id)).Nodup) {e : Event} {n : Step} (hn : n ∈ w.consumersOf e)
    (fired : List Event) : (w.deliveries fired).count (n.id, e) = fired.count e := by
  induction fired with
  | nil => rfl
  | cons x fired ih =>
    rw [deliveries_cons, Multiset.count_add, ih, count_deliveries_singleton distinct hn, List.count_cons,
      Nat.add_comm]
    simp only [beq_iff_eq]

end Workflow

theorem via_ne_none_of_mem_visits {w : Workflow} {events : List Event} {v : Visit}
    (hv : v ∈ Session.visits w events) : v.via ≠ none := by
  obtain ⟨e, -, hv⟩ := List.mem_flatMap.mp hv
  obtain ⟨c, -, rfl⟩ := List.mem_map.mp hv
  exact Option.some_ne_none e

/-! ## The balance -/

/-- The visits that the fired events ask for are the ones made and the ones pending. The visits made are
    those of the trail, and only the first of all was asked for by no event. -/
structure Conserved (w : Workflow) (trace : Trace) (st : RunState) : Prop where
  trail : trace.made.map (·.node) = st.trail
  balance : w.deliveries trace.fired = arrivals trace.made + arrivals st.frontier
  entry : ∀ v ∈ (trace.made ++ st.frontier).tail, v.via ≠ none
  pending : st.status ≠ .running → ∀ v ∈ st.frontier, v.via ≠ none

namespace Conserved

variable {i : Interpreter σ} {s : Session σ} {trace : Trace}

/-- A run that has not begun has made no visit. -/
theorem made_eq_nil (h : Conserved i.workflow trace s.state) (lifecycle : Lifecycle i.workflow s.state)
    (idle : s.state.status = .idle) : trace.made = [] := by
  have trail := h.trail
  rw [lifecycle.idle idle] at trail
  exact List.map_eq_nil_iff.mp trail

/-- The first visit of a run is asked for by no event. -/
theorem begin (h : Conserved i.workflow trace s.state) (lifecycle : Lifecycle i.workflow s.state)
    (idle : s.state.status = .idle) (start : Step) (payload : Json) :
    Conserved i.workflow { trace with payload := some payload } (s.begun start payload).state := by
  have made := h.made_eq_nil lifecycle idle
  have frontier : s.state.frontier = [] := by rw [lifecycle.idle idle]
  refine ⟨?_, ?_, ?_, fun stopped => absurd (s.begun_status start payload) stopped⟩
  · rw [Session.begun_trail]
    exact h.trail
  · have balance := h.balance
    rw [frontier] at balance
    rw [Session.begun_frontier, frontier]
    exact balance
  · rw [Session.begun_frontier, frontier]
    show ∀ v ∈ (trace.made ++ _).tail, _
    rw [made]
    intro v hv
    cases hv

/-- A visit moves from the pending ones to those made, and what it sets off is asked for and pending. -/
theorem visit {v : Visit} {rest : List Visit} {n : Step} {e : Effect} {world : σ}
    (h : Conserved i.workflow trace s.state) (visits : i.Visits s v rest n e world) :
    Conserved i.workflow (trace.add (.visit v n (i.verdict? n v.via s.state.outputs s.world) e))
      (i.turn n (s.entered rest n world) e).session.state := by
  have frontier : (i.turn n (s.entered rest n world) e).session.state.frontier =
      Session.visits i.workflow e.events ++ rest := i.session_frontier ..
  have old : ∀ u ∈ (trace.made ++ [v]).tail ++ rest, u.via ≠ none := by
    have entry := h.entry
    rwa [visits.next, List.append_cons, List.tail_append_of_ne_nil (by simp)] at entry
  have new : ∀ u ∈ Session.visits i.workflow e.events ++ rest, u.via ≠ none := fun u hu =>
    (List.mem_append.mp hu).elim via_ne_none_of_mem_visits fun hu => old u (List.mem_append_right _ hu)
  constructor
  case trail =>
    rw [i.session_trail, Trace.made_add, List.map_append, h.trail]
    exact congrArg (fun id => s.state.trail ++ [id]) (Workflow.mem_of_step? visits.step).2.symm
  case balance =>
    have balance := h.balance
    rw [visits.next, arrivals_cons] at balance
    rw [frontier, Trace.made_add, Trace.fired_add, Deed.fired_visit visits.effect, Workflow.deliveries_append, balance,
      arrivals_append, arrivals_append, Workflow.arrivals_visits]
    show _ = arrivals trace.made + arrivals [v] + _
    ac_rfl
  case entry =>
    rw [frontier, Trace.made_add]
    show ∀ u ∈ (trace.made ++ [v] ++ _).tail, _
    rw [List.tail_append_of_ne_nil (by simp)]
    exact fun u hu => (List.mem_append.mp hu).elim (fun hu => old u (List.mem_append_left _ hu)) (new u)
  case pending =>
    rw [frontier]
    exact fun _ => new

/-- An answer asks for visits and makes none. -/
theorem answer {n : Step} (h : Conserved i.workflow trace s.state) (lifecycle : Lifecycle i.workflow s.state)
    (waiting : s.state.status = .awaitingInput) (id text : String) :
    Conserved i.workflow (trace.add (.answer n text)) ((s.answered id text).follow i.workflow n.emitted).state := by
  have pending := h.pending (by rw [waiting]; decide)
  -- The step that waits has been visited.
  have visited : trace.made ≠ [] := by
    intro none
    obtain ⟨m, -, -, -, last⟩ := lifecycle.waiting waiting
    rw [← h.trail, none] at last
    cases last
  constructor
  case trail => rw [Trace.made_add_answer]; exact h.trail
  case balance =>
    rw [Trace.made_add_answer, Trace.fired_add, Workflow.deliveries_append, h.balance]
    show _ + i.workflow.deliveries n.emitted = _ + arrivals (Session.visits i.workflow n.emitted ++ s.state.frontier)
    rw [arrivals_append, Workflow.arrivals_visits]
    ac_rfl
  case entry =>
    rw [Trace.made_add_answer, List.tail_append_of_ne_nil visited]
    intro u hu
    rcases List.mem_append.mp hu with hu | hu
    · have entry := h.entry
      rw [List.tail_append_of_ne_nil visited] at entry
      exact entry u (List.mem_append_left _ hu)
    · exact (List.mem_append.mp hu).elim via_ne_none_of_mem_visits (pending u)
  case pending => exact fun stopped => absurd rfl stopped

end Conserved

namespace Interpreter

variable {i : Interpreter σ} {s : Session σ} {p : Option Json} {trace : Trace}

theorem Traced.conserved (h : i.Traced trace s) : Conserved i.workflow trace s.state := by
  induction h with
  | new _ _ _ => exact ⟨rfl, rfl, List.forall_mem_nil _, fun _ => List.forall_mem_nil _⟩
  | noStart _ _ idle _ ih => exact ⟨ih.trail, ih.balance, ih.entry, fun _ => ih.pending (by rw [idle]; decide)⟩
  | begin payload traced idle _ ih => exact ih.begin traced.passed.lifecycle idle _ payload
  | visit _ _ visits ih => exact ih.visit visits
  | @finish trace s _ _ next ih =>
    have none : ∀ v ∈ s.state.frontier, v.via ≠ none := by rw [next]; exact List.forall_mem_nil _
    exact ⟨ih.trail, ih.balance, ih.entry, fun _ => none⟩
  | answer text traced waiting _ _ ih => exact ih.answer traced.passed.lifecycle waiting _ text

/-- Over every run of a workflow with distinct ids, the visits that the fired events ask for are the
    visits made, the first one apart, and the pending ones. In a run that has finished, each event was
    taken by each of its consumers as often as it was fired. -/
theorem visits_conserved (distinct : (i.workflow.steps.map (·.id)).Nodup) (h : i.Passed p s) :
    (∃ trace, i.Traced trace s ∧ trace.payload = p) ∧ ∀ trace, i.Traced trace s →
      Conserved i.workflow trace s.state ∧
      (s.state.status = .finished → ∀ e, ∀ n ∈ i.workflow.consumersOf e,
        (arrivals trace.made).count (n.id, e) = trace.fired.count e) := by
  refine ⟨h.exists_traced, fun trace traced => ⟨traced.conserved, fun finished e n hn => ?_⟩⟩
  have balance := traced.conserved.balance
  rw [traced.passed.lifecycle.finished finished, arrivals_nil, add_zero] at balance
  rw [← balance, Workflow.count_deliveries distinct hn]

def askAside : Workflow where
  steps := [
    ⟨"start", .start none, none, some (.single ⟨"in"⟩)⟩,
    ⟨"split", .splitter none none, some (.single ⟨"in"⟩), some (.many [⟨"ask"⟩, ⟨"pass"⟩])⟩,
    ⟨"question", .userInput {}, some (.single ⟨"ask"⟩), some (.single ⟨"answer"⟩)⟩,
    ⟨"gather", .collector none none, some (.many [⟨"answer"⟩, ⟨"pass"⟩]), some (.single ⟨"out"⟩)⟩,
    ⟨"stop", .stop none, some (.single ⟨"out"⟩), none⟩]

/-- The run waits for the answer while the other way is still to be gone. In the end the collector has
    fired its event twice, and the stop has taken it twice. -/
theorem askAside_conserved :
    let i : Interpreter Unit := ⟨askAside, ⟨fun _ u => (.ok "", u), fun _ u => (.ok "", u)⟩, defaultMaxTokens⟩
    (askAside.steps.map (·.id)).Nodup ∧
    ∃ s t u, i.run 9 (.str "go") ⟨{ runId := "first" }, (), []⟩ = some (.ok (.awaitingInput "question" "Enter your input:"), s) ∧
      s.state.frontier = [⟨"gather", some ⟨"pass"⟩⟩] ∧ i.submit 9 "yes" s = some (.ok .finished, t) ∧
      i.Passed (some (.str "go")) t ∧ i.Traced u t ∧ u.fired.count ⟨"out"⟩ = 2 ∧
      Conserved askAside u t.state ∧ (arrivals u.made).count ("stop", ⟨"out"⟩) = 2 := by
  intro i
  have distinct : (askAside.steps.map (·.id)).Nodup := by decide
  have asked := (Traced.new "first" () []).begin (i := i) (.str "go") rfl rfl
    |>.visit rfl ⟨rfl, rfl, rfl⟩ |>.visit rfl ⟨rfl, rfl, rfl⟩ |>.visit rfl ⟨rfl, rfl, rfl⟩
  have finished := asked.answer "yes" rfl rfl rfl
    |>.visit rfl ⟨rfl, rfl, rfl⟩ |>.visit rfl ⟨rfl, rfl, rfl⟩ |>.visit rfl ⟨rfl, rfl, rfl⟩ |>.visit rfl ⟨rfl, rfl, rfl⟩
    |>.finish rfl rfl
  obtain ⟨-, conserved⟩ := visits_conserved (i := i) distinct finished.passed
  obtain ⟨balanced, taken⟩ := conserved _ finished
  have fired := taken rfl ⟨"out"⟩ askAside.steps[4] (by decide)
  exact ⟨distinct, _, _, _, rfl, rfl, rfl, finished.passed, finished, rfl, balanced, fired⟩

end Interpreter
end EventFlow
