/-
  EventFlow.Proofs.Run.Delivery — every visit reads the value that set it off.

  A pending visit does not hold the value that it is about: when the visit is made, the value is
  looked up by the step that sets off its event. Here each pending visit goes together with what
  that step had recorded when the visit was set off (`Parcel`, `Sent`). However often the step is
  carried out in a run, the two stay the same: what is carried out before a pending visit is its
  earlier siblings and what they lead to, and in a workflow without circles none of it is the step
  behind the visit (`Settled`).

  Proved:
  - `Settled.move` / `Passed.settled`: no pending visit leads to a step behind a later one, over
    every move of a run.
  - `Sent.move` / `Passed.exists_sent`: what a visit was sent with is what stands behind it now.
  - `visit_reads_sent`: so in every run of a compiled workflow without circles, a visit reads what
    it was sent with.
-/

import EventFlow.Proofs.Compilation.Origins
import EventFlow.Proofs.Run.Failures

namespace EventFlow

open Relation (ReflTransGen TransGen)

variable {σ : Type}

namespace Workflow

variable {w : Workflow}

/-- No events lead from a step back to it. -/
def Acyclic (w : Workflow) : Prop := ∀ n, ¬ TransGen w.Feeds n n

/-- It is enough that every step feeds only steps of a higher rank. -/
theorem acyclic_of_rank (rank : Step → Nat)
    (later : ∀ p ∈ w.steps, ∀ c ∈ w.steps, p.feeds c = true → rank p < rank c) : w.Acyclic := by
  have rising : ∀ p c, TransGen w.Feeds p c → rank p < rank c := by
    intro p c h
    induction h with
    | single h => exact later _ h.1 _ h.2.1 h.2.2
    | tail _ h ih => exact Nat.lt_trans ih (later _ h.1 _ h.2.1 h.2.2)
  exact fun n h => Nat.lt_irrefl _ (rising n n h)

def behind? (w : Workflow) (outputs : Outputs) (via : Option Event) : Option Json :=
  (via.bind w.producerOf?).bind fun p => outputs.get? p.id

/-- A step is not behind a visit, and leads to no step that is. -/
def Spares (w : Workflow) (n : Step) (v : Visit) : Prop :=
  ∀ q, v.via.bind w.producerOf? = some q → ¬ ReflTransGen w.Feeds n q

/-- A step that spares a visit may record a value: another step stands behind the visit. -/
theorem Spares.behind?_insert {n : Step} {v : Visit} (spares : w.Spares n v)
    (distinct : (w.steps.map (·.id)).Nodup) (hn : n ∈ w.steps) (outputs : Outputs) (value : Json) :
    w.behind? (outputs.insert n.id value) v.via = w.behind? outputs v.via := by
  cases hq : v.via.bind w.producerOf? with
  | none => simp only [behind?, hq, Option.bind_none]
  | some q =>
    obtain ⟨e, -, he⟩ := Option.bind_eq_some_iff.mp hq
    have other : q.id ≠ n.id := by
      intro same
      cases eq_of_id_eq distinct (mem_of_producerOf? he).1 hn same
      exact spares _ hq .refl
    simp only [behind?, hq, Option.bind_some]
    rw [Dictionary.get?_insert, if_neg other]

end Workflow

namespace Interpreter

variable {i : Interpreter σ} {start n : Step} {p : Option Json} {s t : Session σ}

/-! ## What is carried out before a pending visit -/

/-- No pending visit, nor a step that waits, leads to the step behind a later one. -/
structure Settled (w : Workflow) (st : RunState) : Prop where
  pending : st.frontier.Pairwise fun u v => ∀ n, w.step? u.node = some n → w.Spares n v
  waiting : st.status = .awaitingInput → ∀ n, st.current.bind w.step? = some n → ∀ v ∈ st.frontier, w.Spares n v

/-- What the visits that a step sets off lead to is fed by the step. -/
theorem feeds_of_mem_visits {w : Workflow} (runnable : w.Runnable start) (hn : n ∈ w.steps) {events : List Event}
    (own : ∀ e ∈ events, e ∈ n.emitted) {v : Visit} (hv : v ∈ Session.visits w events) :
    v.via.bind w.producerOf? = some n ∧ ∀ c, w.step? v.node = some c → w.Feeds n c := by
  obtain ⟨e, he, hv⟩ := List.mem_flatMap.mp hv
  obtain ⟨c, hc, rfl⟩ := List.mem_map.mp hv
  obtain ⟨hcs, hin⟩ := Workflow.mem_consumersOf_iff.mp hc
  refine ⟨runnable.producer c hcs e hin n hn (own e he), fun c' hc' => ?_⟩
  rw [Workflow.step?_eq_of_mem runnable.idsDistinct hcs] at hc'
  cases hc'
  exact ⟨hn, hcs, Step.feeds_iff.mpr ⟨e, hin, own e he⟩⟩

/-- The visits that a step sets off stay apart from each other, and from those that the step spares. -/
theorem pairwise_visits {w : Workflow} (runnable : w.Runnable start) (acyclic : w.Acyclic) (hn : n ∈ w.steps)
    {events : List Event} (own : ∀ e ∈ events, e ∈ n.emitted) {rest : List Visit}
    (pending : rest.Pairwise fun u v => ∀ n, w.step? u.node = some n → w.Spares n v)
    (spared : ∀ v ∈ rest, w.Spares n v) :
    (Session.visits w events ++ rest).Pairwise fun u v => ∀ n, w.step? u.node = some n → w.Spares n v := by
  refine List.pairwise_append.mpr ⟨List.pairwise_iff_forall_sublist.mpr fun {u v} both c hc q hq leads => ?_,
    pending, fun u hu v hv c hc q hq leads => ?_⟩
  · -- Of two siblings, the one before would lead back to the step that set both off.
    have hu : u ∈ Session.visits w events := both.subset List.mem_cons_self
    have hv : v ∈ Session.visits w events := both.subset (List.mem_cons_of_mem _ List.mem_cons_self)
    rw [(feeds_of_mem_visits runnable hn own hv).1] at hq
    cases hq
    exact acyclic n (TransGen.head' ((feeds_of_mem_visits runnable hn own hu).2 c hc) leads)
  · exact spared v hv q hq (.head ((feeds_of_mem_visits runnable hn own hu).2 c hc) leads)

namespace Settled

/-- A session that is under way is settled if its pending visits are. -/
theorem of_running {w : Workflow} {st : RunState} (running : st.status = .running)
    (pending : st.frontier.Pairwise fun u v => ∀ n, w.step? u.node = some n → w.Spares n v) : Settled w st where
  pending := pending
  waiting h := by rw [running] at h; cases h

/-- A step that is visited spares the visits behind it. -/
theorem spares {v : Visit} {rest : List Visit} (h : Settled i.workflow s.state) (next : s.state.frontier = v :: rest)
    (step : i.workflow.step? v.node = some n) : ∀ x ∈ rest, i.workflow.Spares n x := by
  have pending := h.pending
  rw [next, List.pairwise_cons] at pending
  exact fun x hx => pending.1 x hx n step

theorem rest {v : Visit} {rest : List Visit} (h : Settled i.workflow s.state) (next : s.state.frontier = v :: rest) :
    rest.Pairwise fun u v => ∀ n, i.workflow.step? u.node = some n → i.workflow.Spares n v := by
  have pending := h.pending
  rw [next, List.pairwise_cons] at pending
  exact pending.2

theorem move (runnable : i.workflow.Runnable start) (acyclic : i.workflow.Acyclic) (h : Settled i.workflow s.state)
    (move : i.Move s t) : Settled i.workflow t.state := by
  cases move with
  | @pass v rest n events world running visits =>
    have own : ∀ e ∈ events, e ∈ n.emitted := by
      obtain ⟨-, ⟨-, rfl⟩ | ⟨-, rfl⟩⟩ := pass_cases visits.effect
      · exact fun e he => he
      · intro e he; cases he
    exact of_running running (pairwise_visits runnable acyclic (Workflow.mem_of_step? visits.step).1 own
      (h.rest visits.next) (h.spares visits.next visits.step))
  | @complete v rest n value events world running visits =>
    exact of_running running (pairwise_visits runnable acyclic (Workflow.mem_of_step? visits.step).1
      (mem_emitted_of_complete visits.effect) (h.rest visits.next) (h.spares visits.next visits.step))
  | @wait v rest n prompt world running visits =>
    have step : i.workflow.step? n.id = some n := (Workflow.mem_of_step? visits.step).2 ▸ visits.step
    refine ⟨h.rest visits.next, fun _ m hm => ?_⟩
    cases Option.some.inj (step.symm.trans hm)
    exact h.spares visits.next visits.step
  | fail running visits => exact ⟨h.rest visits.next, fun h => by cases h⟩
  | unknown running next step => exact ⟨h.rest next, fun h => by cases h⟩
  | finish running next => exact ⟨h.pending, fun h => by cases h⟩
  | lost waiting current => exact ⟨h.pending, fun h => by cases h⟩
  | @answer id answer n waiting current step =>
    have spared := h.waiting waiting n (by rw [current]; exact step)
    exact of_running rfl (pairwise_visits runnable acyclic (Workflow.mem_of_step? step).1 (fun _ he => he)
      h.pending spared)

end Settled

theorem Passed.settled (runnable : i.workflow.Runnable start) (acyclic : i.workflow.Acyclic) (h : i.Passed p s) :
    Settled i.workflow s.state := by
  induction h with
  | new _ _ _ => exact ⟨.nil, fun h => by cases h⟩
  | noStart _ _ _ hstart =>
    rw [runnable.start] at hstart
    cases hstart
  | @begin p s start payload hs idle _ _ =>
    refine .of_running (s.begun_status start payload) ?_
    rw [Session.begun_frontier, (hs.supplied runnable).idle idle]
    exact List.pairwise_singleton _ _
  | move _ h ih => exact ih.move runnable acyclic h

/-! ## What the pending visits were sent with -/

structure Parcel where
  visit : Visit
  value : Option Json

def parcels (w : Workflow) (outputs : Outputs) (new : List Visit) : List Parcel :=
  new.map fun v => ⟨v, w.behind? outputs v.via⟩

def later {α : Type} (st : RunState) (pending : List α) : List α :=
  if st.status = .running then pending.tail else pending

/-- The sessions that a run passes through, and its pending visits with what they were sent with: a
    move leaves the later ones as they are and puts those that it sets off before them. -/
inductive Sent (i : Interpreter σ) : Option Json → Session σ → List Parcel → Prop
  | new (runId : String) (world : σ) (events : List RunEvent) : Sent i none { state := { runId }, world, events } []
  | noStart {p : Option Json} {s : Session σ} {sent : List Parcel} (payload : Json) :
      Sent i p s sent → s.state.status = .idle → i.workflow.startStep? = none →
      Sent i (some payload) (s.started.failWith .noStart).2 sent
  | begin {p : Option Json} {s : Session σ} {sent : List Parcel} {start : Step} (payload : Json) :
      Sent i p s sent → s.state.status = .idle → i.workflow.startStep? = some start →
      Sent i (some payload) (s.begun start payload) (⟨{ node := start.id }, none⟩ :: sent)
  | move {p : Option Json} {s t : Session σ} {sent : List Parcel} {new : List Visit} :
      Sent i p s sent → i.Move s t → t.state.frontier = new ++ later s.state s.state.frontier →
      Sent i p t (parcels i.workflow t.state.outputs new ++ later s.state sent)

theorem Sent.passed {sent : List Parcel} (h : i.Sent p s sent) : i.Passed p s := by
  induction h with
  | new runId world events => exact .new runId world events
  | noStart payload _ idle hstart ih => exact ih.noStart payload idle hstart
  | begin payload _ idle hstart ih => exact ih.begin payload idle hstart
  | move _ h _ ih => exact ih.move h

/-- A move takes at most the first visit and puts others before the rest. -/
theorem Move.exists_new (h : i.Move s t) : ∃ new, t.state.frontier = new ++ later s.state s.state.frontier := by
  have taken : ∀ {v rest}, s.state.status = .running → s.state.frontier = v :: rest →
      later s.state s.state.frontier = rest := fun running next => by rw [later, if_pos running, next, List.tail_cons]
  have left : s.state.status = .awaitingInput → later s.state s.state.frontier = s.state.frontier :=
    fun waiting => by rw [later, if_neg (by rw [waiting]; decide)]
  cases h with
  | pass running visits => exact ⟨_, by rw [taken running visits.next]; rfl⟩
  | complete running visits => exact ⟨_, by rw [taken running visits.next]; rfl⟩
  | wait running visits => exact ⟨[], by rw [taken running visits.next]; rfl⟩
  | fail running visits => exact ⟨[], by rw [taken running visits.next]; rfl⟩
  | unknown running next _ => exact ⟨[], by rw [taken running next]; rfl⟩
  | finish running next => exact ⟨[], by rw [later, if_pos running, next]; exact next⟩
  | answer waiting _ _ => exact ⟨_, by rw [left waiting]; rfl⟩
  | lost waiting _ => exact ⟨[], by rw [left waiting]; rfl⟩

theorem Passed.exists_sent (h : i.Passed p s) : ∃ sent, i.Sent p s sent := by
  induction h with
  | new runId world events => exact ⟨[], .new runId world events⟩
  | noStart payload _ idle hstart ih =>
    obtain ⟨sent, h⟩ := ih
    exact ⟨_, h.noStart payload idle hstart⟩
  | begin payload _ idle hstart ih =>
    obtain ⟨sent, h⟩ := ih
    exact ⟨_, h.begin payload idle hstart⟩
  | move _ move ih =>
    obtain ⟨sent, h⟩ := ih
    obtain ⟨new, hnew⟩ := move.exists_new
    exact ⟨_, h.move move hnew⟩

theorem mem_of_mem_later {α : Type} {st : RunState} {pending : List α} {x : α} (h : x ∈ later st pending) :
    x ∈ pending := by
  unfold later at h
  split at h
  · exact List.mem_of_mem_tail h
  · exact h

theorem map_later {α β : Type} (f : α → β) (st : RunState) (pending : List α) :
    (later st pending).map f = later st (pending.map f) := by
  unfold later
  split
  · exact List.map_tail
  · rfl

/-- A move changes nothing of what stands behind the visits that it leaves. -/
theorem Move.behind?_later (runnable : i.workflow.Runnable start) (settled : Settled i.workflow s.state)
    (h : i.Move s t) : ∀ v ∈ later s.state s.state.frontier,
      i.workflow.behind? t.state.outputs v.via = i.workflow.behind? s.state.outputs v.via := by
  intro v hv
  cases h with
  | @complete u rest n value events world running visits =>
    rw [later, if_pos running, visits.next, List.tail_cons] at hv
    exact (settled.spares visits.next visits.step v hv).behind?_insert runnable.idsDistinct
      (Workflow.mem_of_step? visits.step).1 _ _
  | @answer id answer n waiting current step =>
    obtain ⟨hn, rfl⟩ := Workflow.mem_of_step? step
    have spares := settled.waiting waiting n (by rw [current]; exact step) v (mem_of_mem_later hv)
    exact spares.behind?_insert runnable.idsDistinct hn _ _
  | pass _ _ => rfl
  | wait _ _ => rfl
  | fail _ _ => rfl
  | unknown _ _ _ => rfl
  | finish _ _ => rfl
  | lost _ _ => rfl

structure Intact (w : Workflow) (st : RunState) (sent : List Parcel) : Prop where
  visits : sent.map (·.visit) = st.frontier
  values : ∀ x ∈ sent, x.value = w.behind? st.outputs x.visit.via

theorem Intact.move {sent : List Parcel} {new : List Visit} (runnable : i.workflow.Runnable start)
    (settled : Settled i.workflow s.state) (h : Intact i.workflow s.state sent) (move : i.Move s t)
    (frontier : t.state.frontier = new ++ later s.state s.state.frontier) :
    Intact i.workflow t.state (parcels i.workflow t.state.outputs new ++ later s.state sent) where
  visits := by
    rw [List.map_append, map_later, h.visits, frontier, parcels, List.map_map]
    exact congrArg (· ++ _) (List.map_id new)
  values := by
    intro x hx
    rcases List.mem_append.mp hx with hx | hx
    · obtain ⟨v, -, rfl⟩ := List.mem_map.mp hx
      rfl
    · have left : x.visit ∈ later s.state s.state.frontier := by
        rw [← h.visits, ← map_later]
        exact List.mem_map_of_mem hx
      rw [h.values x (mem_of_mem_later hx), move.behind?_later runnable settled x.visit left]

theorem Sent.intact {sent : List Parcel} (runnable : i.workflow.Runnable start) (acyclic : i.workflow.Acyclic)
    (h : i.Sent p s sent) : Intact i.workflow s.state sent := by
  induction h with
  | new _ _ _ => exact ⟨rfl, fun x hx => by cases hx⟩
  | noStart _ _ _ hstart =>
    rw [runnable.start] at hstart
    cases hstart
  | @begin p s sent start payload hs idle _ ih =>
    -- Nothing is pending in an idle run, so nothing is lost when the payload is recorded.
    have none : sent = [] := by
      have visits := ih.visits
      rw [(hs.passed.supplied runnable).idle idle] at visits
      exact List.map_eq_nil_iff.mp visits
    cases none
    refine ⟨?_, fun x hx => ?_⟩
    · rw [Session.begun_frontier, (hs.passed.supplied runnable).idle idle]
      rfl
    · cases List.mem_singleton.mp hx
      rfl
  | move hs move frontier ih =>
    exact ih.move runnable (hs.passed.settled runnable acyclic) move frontier

/-! ## What a visit reads -/

/-- A step that has recorded nothing is the start, which waits for nothing. -/
theorem firstProducer?_of_unrecorded {q : Step} {outputs : Outputs} (runnable : i.workflow.Runnable start)
    (recorded : Recorded start p outputs q) (hq : outputs.get? q.id = none) : i.workflow.firstProducer? q = none := by
  rcases recorded with recorded | ⟨rfl, -⟩
  · rw [hq] at recorded; cases recorded
  · have hkind : q.kind = .start := by simpa using List.find?_some runnable.start
    rw [Workflow.firstProducer?, Workflow.producersFor,
      runnable.startAccepts q (List.mem_of_find?_eq_some runnable.start) hkind]
    rfl

/-- What an agent is given to work on is what stands behind its visit. -/
theorem agentInput_eq {q : Step} {e : Event} {outputs : Outputs} (runnable : i.workflow.Runnable start)
    (recorded : Recorded start p outputs q) (hq : i.workflow.producerOf? e = some q) :
    i.workflow.agentInput n (some e) outputs =
      (outputs.get? q.id).elim (.error (.inputNotFound n.id q.id)) fun value => .ok value.plainText := by
  cases hvalue : outputs.get? q.id with
  | some value => exact Workflow.agentInput_of_recorded hq hvalue
  | none =>
    have member : q.id ∈ i.workflow.stepIds :=
      List.mem_eraseDups.mpr (List.mem_map_of_mem (Workflow.mem_of_producerOf? hq).1)
    rw [Workflow.agentInput, Option.bind_some, hq]
    show i.workflow.nearestText outputs n.id i.workflow.stepIds n (some q) = _
    rw [Workflow.nearestText]
    simp only [hvalue, if_pos member, firstProducer?_of_unrecorded runnable recorded hvalue, Workflow.nearestText]
    rfl

/-- In a run of a compiled workflow without circles, each visit reads what the step that set it off
    had recorded at that time. -/
theorem visit_reads_sent {g : Graph} {settings : Settings} {configs : ToolConfigs} {order : SearchOrder}
    (distinct : (g.edges.map (·.id)).Nodup) (compiled : g.compile settings configs order = .ok i.workflow)
    (acyclic : i.workflow.Acyclic) (h : i.Passed p s) :
    (∃ sent, i.Sent p s sent) ∧ ∀ sent, i.Sent p s sent →
      sent.map (·.visit) = s.state.frontier ∧
      ∀ v rest n effect world e, i.Visits s v rest n effect world → v.via = some e →
        ∃ q value others, i.workflow.producerOf? e = some q ∧ sent = ⟨v, value⟩ :: others ∧
          i.workflow.inputValue n v.via s.state.outputs = value.elim (.error (.inputNotFound n.id q.id)) .ok ∧
          i.workflow.agentInput n v.via s.state.outputs =
            value.elim (.error (.inputNotFound n.id q.id)) fun value => .ok value.plainText := by
  obtain ⟨start, runnable⟩ := Graph.compile_runnable distinct compiled
  refine ⟨h.exists_sent, fun sent hsent => ?_⟩
  have intact := hsent.intact runnable acyclic
  refine ⟨intact.visits, fun v rest n effect world e visits via => ?_⟩
  obtain ⟨-, ⟨none, -⟩ | ⟨e', q, hvia, -, -, hq, recorded⟩⟩ :=
    ((h.supplied runnable).pending v (visits.next ▸ List.mem_cons_self)).step runnable visits.step
  · rw [via] at none; cases none
  cases Option.some.inj (via.symm.trans hvia)
  obtain ⟨⟨v', value⟩, others, rfl, hv, -⟩ := List.map_eq_cons_iff.mp (intact.visits.trans visits.next)
  obtain rfl : v' = v := hv
  have behind : value = s.state.outputs.get? q.id := by
    have behind := intact.values _ List.mem_cons_self
    simpa only [Workflow.behind?, via, Option.bind_some, hq] using behind
  refine ⟨q, value, others, hq, rfl, ?_, ?_⟩
  · rw [via]
    simp only [Workflow.inputValue, hq, behind]
    cases s.state.outputs.get? q.id <;> rfl
  · rw [via, behind]
    exact agentInput_eq runnable recorded hq

/-! ## A collector that is carried out twice -/

/-- Both events of a splitter lead to a collector, whose value goes to another splitter. -/
def twice : Graph :=
  ({ nodes := [.start "1", .splitter "2", .collector "3", .splitter "4", .stop "5"] } : Graph)
    |>.join "a" "1" "2" |>.join "b" "2" "3" |>.join "c" "2" "3" |>.join "d" "3" "4" |>.join "e" "4" "5"

def twiceSteps : List Step :=
  [⟨"node-1", .start none, none, some (.single ⟨"event-a"⟩)⟩,
    ⟨"node-2", .splitter none none, some (.single ⟨"event-a"⟩), some (.many [⟨"event-b"⟩, ⟨"event-c"⟩])⟩,
    ⟨"node-3", .collector none none, some (.many [⟨"event-b"⟩, ⟨"event-c"⟩]), some (.single ⟨"event-d"⟩)⟩,
    ⟨"node-4", .splitter none none, some (.single ⟨"event-d"⟩), some (.single ⟨"event-e"⟩)⟩,
    ⟨"node-5", .stop none, some (.single ⟨"event-e"⟩), none⟩]

theorem compile_twice : twice.compile {} .empty .breadthFirst = .ok ⟨twiceSteps, {}⟩ := by
  have hs : twice.firstOfKind? .start = some 0 := by decide
  have steps : twice.compiled .empty .breadthFirst 0 = twiceSteps := by decide +kernel
  rw [Graph.compile_of_firstOfKind? hs, steps]

/-- A run passes on to the session that a visit proceeds to. -/
theorem Passed.proceed {v : Visit} {rest : List Visit} {e : Effect} {world : σ} (hs : i.Passed p s)
    (running : s.state.status = .running) (visits : i.Visits s v rest n e world)
    (turn : i.turn n (s.entered rest n world) e = .proceed t) : i.Passed p t := by
  cases e with
  | pass events => cases turn; exact hs.move (.pass running visits)
  | complete value events => cases turn; exact hs.move (.complete running visits)
  | wait prompt => cases turn
  | fail f => cases turn

/-- The second splitter is visited once for each value of the collector. At its second visit the
    collector holds two items, and two items were sent. -/
theorem twice_reads_sent :
    let w : Workflow := ⟨twiceSteps, {}⟩
    let i : Interpreter Unit := ⟨w, ⟨fun _ u => (.ok "", u), fun _ u => (.ok "", u)⟩, defaultMaxTokens⟩
    let both : Json := .arr [.str "go", .str "go"]
    (twice.edges.map (·.id)).Nodup ∧ twice.compile {} .empty .breadthFirst = .ok w ∧ w.Acyclic ∧
    ∃ s, i.Passed (some (.str "go")) s ∧
      s.state.trail = ["node-1", "node-2", "node-3", "node-4", "node-5", "node-3"] ∧
      ∃ sent, i.Sent (some (.str "go")) s sent ∧ ∃ others,
        sent = ⟨⟨"node-4", some ⟨"event-d"⟩⟩, some both⟩ :: others ∧
        w.inputValue twiceSteps[3] (some ⟨"event-d"⟩) s.state.outputs = .ok both := by
  intro w i both
  have distinct : (twice.edges.map (·.id)).Nodup := by decide
  have acyclic : w.Acyclic := Workflow.acyclic_of_rank (fun n => w.steps.idxOf n) (by decide)
  have begun : i.workflow.startStep? = some twiceSteps[0] := rfl
  have start := Passed.begin (.str "go") (.new "first" () []) rfl begun
  have split := start.proceed rfl ⟨rfl, rfl, rfl⟩ rfl
  have collect := split.proceed rfl ⟨rfl, rfl, rfl⟩ rfl
  have pass := collect.proceed rfl ⟨rfl, rfl, rfl⟩ rfl
  have stop := pass.proceed rfl ⟨rfl, rfl, rfl⟩ rfl
  have again := stop.proceed rfl ⟨rfl, rfl, rfl⟩ rfl
  have passed := again.proceed rfl ⟨rfl, rfl, rfl⟩ rfl
  obtain ⟨⟨sent, hsent⟩, reads⟩ := visit_reads_sent distinct compile_twice acyclic passed
  obtain ⟨-, reads⟩ := reads sent hsent
  obtain ⟨q, value, others, hq, rfl, reads, -⟩ := reads _ _ twiceSteps[3] _ _ _ ⟨rfl, rfl, rfl⟩ rfl
  refine ⟨distinct, compile_twice, acyclic, _, passed, rfl, _, hsent, others, ?_, rfl⟩
  cases value with
  | none => cases reads
  | some value => cases reads; rfl

end Interpreter
end EventFlow
