/-
  EventFlow.Proofs.Run.Failures — why the run of a compiled workflow fails.

  A run cannot get stuck on the workflow itself: a visit leads to a step that is no tool, and the
  event that led to it has one producer, which has recorded a value before it set the event off
  (`Fed`). Only the start records nothing when it is visited; its value is the payload, so without
  one the steps right after the start may find nothing to read. All other failures come from the
  services, or from a model's name that no provider has (`Excuse`).

  Proved:
  - `compile_runnable`: what a run relies on holds of every compiled workflow.
  - `Supplied.move` / `Passed.supplied`: every visit still to make is fed, over every move of a run.
  - `failed_excused`: a run that operations have led to a failure has an excuse.
-/

import EventFlow.Proofs.Compilation.Wiring
import EventFlow.Proofs.Run.Moves

namespace EventFlow

structure Workflow.Runnable (w : Workflow) (start : Step) : Prop where
  idsDistinct : (w.steps.map (·.id)).Nodup
  start : w.startStep? = some start
  noTools : ∀ n ∈ w.steps, n.kind ≠ .agentTool
  startAccepts : ∀ n ∈ w.steps, n.kind = .start → n.accepted = []
  producer : ∀ n ∈ w.steps, ∀ v ∈ n.accepted, ∀ p ∈ w.steps, v ∈ p.emitted → w.producerOf? v = some p

theorem Graph.compile_runnable {g : Graph} {settings : Settings} {configs : ToolConfigs} {order : SearchOrder}
    {w : Workflow} (distinct : (g.edges.map (·.id)).Nodup) (compiled : g.compile settings configs order = .ok w) :
    ∃ start, w.Runnable start := by
  obtain ⟨p, hp, rfl⟩ := compile_eq_ok_iff.mp compiled
  obtain ⟨n, hn, -, -⟩ := firstOfKind?_eq_some hp
  have shaped : Workflow.Shaped ⟨g.compiled configs order p, settings⟩ g n := compiled_shaped hp hn.1 settings
  have wired : Workflow.Wired ⟨g.compiled configs order p, settings⟩ g := compiled_wired hp settings distinct
  obtain ⟨start, -, hstart, -, -⟩ := shaped.startFirst
  refine ⟨start, shaped.idsDistinct, hstart, shaped.noTools, fun n hn hkind => ?_, fun n hn v hv p hp hpv => ?_⟩
  · rw [Step.accepted, (shaped.acceptsNone n hn).mpr hkind]
    rfl
  · obtain ⟨e, q, -, -, -, -, hq, unique⟩ := wired.accepted n hn v hv
    rw [hq, (unique p hp).mp hpv]

/-- A model is refused only for its provider. -/
theorem Settings.resolveModel_error {settings : Settings} {llm model : Option String} {temperature : Option Single}
    {maxTokens : Nat} {f : Failure} (h : settings.resolveModel llm model temperature maxTokens = .error f) :
    ∃ name, f = .providerNotSupported name := by
  unfold resolveModel provider at h
  cases hp : Provider.ofModelName? ((Text.nonEmpty llm).getD settings.defaultLlm) with
  | none => simp only [hp] at h; exact ⟨_, (Except.error.inj h).symm⟩
  | some p => simp only [hp] at h; cases h

namespace Interpreter

variable {σ : Type} {i : Interpreter σ} {start : Step} {p : Option Json} {s t : Session σ}

/-- Why a step may fail that a run with this payload has come to in a session, and that leaves
    the world as given: a service failed, no provider has the name of the step's model, or there is
    no payload to read for a step right after the start. -/
inductive Excuse (i : Interpreter σ) (p : Option Json) (s : Session σ) (world : σ) (n : Step) (via : Option Event) :
    Failure → Prop
  | chat {f : Failure} {value : Json} {request : ChatRequest}
      (reads : i.workflow.inputValue n via s.state.outputs = .ok value)
      (asks : i.question n value = some (.ok request)) (reply : i.services.chat request s.world = (.error f, world)) :
      Excuse i p s world n via f
  | agent {f : Failure} (kind : n.kind = .promptAgent)
      (reply : i.services.agent ⟨i.workflow, n.id, via, s.state.outputs⟩ s.world = (.error f, world)) :
      Excuse i p s world n via f
  | provider {name : String} (model : i.modelOf n = some (.error (.providerNotSupported name))) :
      Excuse i p s world n via (.providerNotSupported name)
  | payload {start : Step} {e : Event} (isStart : i.workflow.startStep? = some start) (missing : p = some .null)
      (led : via = some e) (emitted : e ∈ start.emitted) (accepted : e ∈ n.accepted) :
      Excuse i p s world n via (.inputNotFound n.id start.id)

/-- The last thing that the run did was to visit a step, and the step failed with an excuse; the
    message of its failure is the error that the run has recorded. -/
def Excused (i : Interpreter σ) (p : Option Json) (t : Session σ) : Prop :=
  ∃ s v rest n f world, i.Passed p s ∧ i.Visits s v rest n (.fail f) world ∧
    t = ((s.entered rest n world).failWith f).2 ∧ Excuse i p s world n v.via f

/-- A step has recorded its value, or is the start and has none because there is no payload. -/
def Recorded (start : Step) (p : Option Json) (outputs : Outputs) (n : Step) : Prop :=
  (outputs.get? n.id).isSome ∨ n = start ∧ p = some .null

/-- A visit of the start, or one that an event has led to whose producer has recorded a value. -/
def Fed (w : Workflow) (start : Step) (p : Option Json) (outputs : Outputs) (v : Visit) : Prop :=
  ∃ n ∈ w.steps, n.id = v.node ∧ ((v.via = none ∧ n = start) ∨
    ∃ e q, v.via = some e ∧ e ∈ n.accepted ∧ e ∈ q.emitted ∧ w.producerOf? e = some q ∧ Recorded start p outputs q)

structure Supplied (i : Interpreter σ) (start : Step) (p : Option Json) (s : Session σ) : Prop where
  idle : s.state.status = .idle → s.state.frontier = []
  started : s.state.status ≠ .idle → Recorded start p s.state.outputs start
  pending : ∀ v ∈ s.state.frontier, Fed i.workflow start p s.state.outputs v
  waiting : s.state.status = .awaitingInput → ∃ n ∈ i.workflow.steps, s.state.current = some n.id

theorem modelOf_error {n : Step} {f : Failure} (h : i.modelOf n = some (.error f)) :
    ∃ name, f = .providerNotSupported name := by
  unfold modelOf at h
  split at h
  case h_1 => exact Settings.resolveModel_error (Option.some.inj h)
  case h_2 => exact Settings.resolveModel_error (Option.some.inj h)
  case h_3 => cases h

/-! ## Values stay recorded -/

theorem Recorded.insert {outputs : Outputs} {n : Step} (h : Recorded start p outputs n) (id : String) (value : Json) :
    Recorded start p (outputs.insert id value) n :=
  h.imp_left fun h => Dictionary.isSome_get?_insert h id value

theorem recorded_insert_self (start n : Step) (p : Option Json) (outputs : Outputs) (value : Json) :
    Recorded start p (outputs.insert n.id value) n :=
  Or.inl (by rw [Dictionary.get?_insert_self]; rfl)

theorem Fed.insert {w : Workflow} {outputs : Outputs} {v : Visit} (h : Fed w start p outputs v) (id : String)
    (value : Json) : Fed w start p (outputs.insert id value) v := by
  obtain ⟨n, hn, hid, h⟩ := h
  refine ⟨n, hn, hid, h.imp_right ?_⟩
  rintro ⟨e, q, hvia, hin, hout, hq, recorded⟩
  exact ⟨e, q, hvia, hin, hout, hq, recorded.insert id value⟩

/-! ## What an event leads to -/

/-- The visits that the events of a step set off are fed once the step has recorded its value. -/
theorem fed_visits {w : Workflow} (runnable : w.Runnable start) {n : Step} (hn : n ∈ w.steps) {outputs : Outputs}
    (recorded : Recorded start p outputs n) {events : List Event} (hevents : ∀ e ∈ events, e ∈ n.emitted) :
    ∀ v ∈ Session.visits w events, Fed w start p outputs v := by
  intro v hv
  obtain ⟨e, he, hv⟩ := List.mem_flatMap.mp hv
  obtain ⟨c, hc, rfl⟩ := List.mem_map.mp hv
  obtain ⟨hcs, hin⟩ := Workflow.mem_consumersOf_iff.mp hc
  have hout := hevents e he
  exact ⟨c, hcs, rfl, Or.inr ⟨e, n, rfl, hin, hout, runnable.producer c hcs e hin n hn hout, recorded⟩⟩

/-- The step that a fed visit leads to. -/
theorem Fed.step {w : Workflow} (runnable : w.Runnable start) {outputs : Outputs} {v : Visit}
    (h : Fed w start p outputs v) {n : Step} (hn : w.step? v.node = some n) :
    n ∈ w.steps ∧ ((v.via = none ∧ n = start) ∨
      ∃ e q, v.via = some e ∧ e ∈ n.accepted ∧ e ∈ q.emitted ∧ w.producerOf? e = some q ∧
        Recorded start p outputs q) := by
  obtain ⟨m, hm, hid, h⟩ := h
  obtain ⟨hns, hnid⟩ := Workflow.mem_of_step? hn
  cases Workflow.eq_of_id_eq runnable.idsDistinct hns hm (hnid.trans hid.symm)
  exact ⟨hm, h⟩

/-- A start is only visited as the start of the run. -/
theorem Fed.eq_start {w : Workflow} (runnable : w.Runnable start) {outputs : Outputs} {v : Visit}
    (h : Fed w start p outputs v) {n : Step} (hn : w.step? v.node = some n) (hkind : n.kind = .start) : n = start := by
  obtain ⟨hns, ⟨-, rfl⟩ | ⟨e, q, -, hin, -⟩⟩ := h.step runnable hn
  · rfl
  · rw [runnable.startAccepts n hns hkind] at hin
    cases hin

theorem inputValue_eq_error {w : Workflow} {n q : Step} {e : Event} (hq : w.producerOf? e = some q) {outputs : Outputs}
    {f : Failure} (h : w.inputValue n (some e) outputs = .error f) :
    outputs.get? q.id = none ∧ f = .inputNotFound n.id q.id := by
  simp only [Workflow.inputValue, hq] at h
  split at h
  case h_1 => cases h
  case h_2 hvalue => exact ⟨hvalue, (Except.error.inj h).symm⟩

/-- A fed step that finds nothing to read was led to by an event of the start, without a payload. -/
theorem Fed.excuse {v : Visit} (runnable : i.workflow.Runnable start) {n : Step}
    (h : Fed i.workflow start p s.state.outputs v) (hn : i.workflow.step? v.node = some n) (hkind : n.kind ≠ .start)
    {f : Failure} (hinput : i.workflow.inputValue n v.via s.state.outputs = .error f) (world : σ) :
    Excuse i p s world n v.via f := by
  obtain ⟨-, ⟨-, rfl⟩ | ⟨e, q, hvia, hin, hout, hq, recorded⟩⟩ := h.step runnable hn
  · exact absurd (by simpa using List.find?_some runnable.start) hkind
  · rw [hvia] at hinput
    obtain ⟨hvalue, rfl⟩ := inputValue_eq_error hq hinput
    rcases recorded with recorded | ⟨rfl, hp⟩
    · rw [hvalue] at recorded; cases recorded
    · exact .payload runnable.start hp hvia hout hin

/-! ## Every run -/

/-- A session that is under way is supplied if the start and the producers of the pending events
    have recorded their values. -/
theorem supplied_of_running (running : t.state.status = .running) (started : Recorded start p t.state.outputs start)
    (pending : ∀ v ∈ t.state.frontier, Fed i.workflow start p t.state.outputs v) : Supplied i start p t := by
  constructor
  case started => intro _; exact started
  case pending => exact pending
  all_goals intro h; rw [running] at h; cases h

namespace Supplied

variable (runnable : i.workflow.Runnable start) (hs : Supplied i start p s)

include runnable hs

theorem exists_step {v : Visit} {rest : List Visit} (next : s.state.frontier = v :: rest) :
    ∃ n, i.workflow.step? v.node = some n := by
  obtain ⟨n, hn, hid, -⟩ := hs.pending v (next ▸ List.mem_cons_self)
  exact ⟨n, hid ▸ Workflow.step?_eq_of_mem runnable.idsDistinct hn⟩

theorem exists_current (waiting : s.state.status = .awaitingInput) :
    ∃ n, s.state.current.bind i.workflow.step? = some n := by
  obtain ⟨n, hn, hcurrent⟩ := hs.waiting waiting
  exact ⟨n, by rw [hcurrent]; exact Workflow.step?_eq_of_mem runnable.idsDistinct hn⟩

theorem move (h : i.Move s t) : Supplied i start p t := by
  have later : ∀ {v rest}, s.state.frontier = v :: rest → ∀ x ∈ rest, Fed i.workflow start p s.state.outputs x :=
    fun next x hx => hs.pending x (next ▸ List.mem_cons_of_mem _ hx)
  have started : ∀ {status}, s.state.status = status → status ≠ .idle → Recorded start p s.state.outputs start :=
    fun h hne => hs.started (h ▸ hne)
  cases h with
  | @pass v rest n events world running visits =>
    have recorded := started running (by simp)
    refine supplied_of_running running recorded fun x hx => ?_
    rcases List.mem_append.mp hx with hx | hx
    · obtain ⟨-, ⟨hkind, rfl⟩ | ⟨-, rfl⟩⟩ := pass_cases visits.effect
      · have fed := hs.pending v (visits.next ▸ List.mem_cons_self)
        cases fed.eq_start runnable visits.step hkind
        exact fed_visits runnable (Workflow.mem_of_step? visits.step).1 recorded (fun _ he => he) x hx
      · cases hx
    · exact later visits.next x hx
  | @complete v rest n value events world running visits =>
    refine supplied_of_running running ((started running (by simp)).insert _ _) fun x hx => ?_
    rcases List.mem_append.mp hx with hx | hx
    · exact fed_visits runnable (Workflow.mem_of_step? visits.step).1 (recorded_insert_self _ _ _ _ _)
        (mem_emitted_of_complete visits.effect) x hx
    · exact (later visits.next x hx).insert _ _
  | @wait v rest n prompt world running visits =>
    constructor
    case idle => intro h; cases h
    case started => intro _; exact started running (by simp)
    case pending => exact later visits.next
    case waiting => intro _; exact ⟨n, (Workflow.mem_of_step? visits.step).1, rfl⟩
  | @fail v rest n f world running visits =>
    constructor
    case idle => intro h; cases h
    case started => intro _; exact started running (by simp)
    case pending => exact later visits.next
    case waiting => intro h; cases h
  | @unknown v rest running next step =>
    obtain ⟨n, hn⟩ := hs.exists_step runnable next
    rw [hn] at step
    cases step
  | finish running next =>
    constructor
    case idle => intro h; cases h
    case started => intro _; exact started running (by simp)
    case pending => exact hs.pending
    case waiting => intro h; cases h
  | @answer id answer n waiting current step =>
    obtain ⟨hn, rfl⟩ := Workflow.mem_of_step? step
    refine supplied_of_running rfl ((started waiting (by simp)).insert _ _) fun x hx => ?_
    rcases List.mem_append.mp hx with hx | hx
    · exact fed_visits runnable hn (recorded_insert_self _ _ _ _ _) (fun _ he => he) x hx
    · exact (hs.pending x hx).insert _ _
  | lost waiting current =>
    obtain ⟨n, hn⟩ := hs.exists_current runnable waiting
    rw [hn] at current
    cases current

theorem begin (idle : s.state.status = .idle) (payload : Json) :
    Supplied i start (some payload) (s.begun start payload) := by
  refine supplied_of_running (s.begun_status start payload) ?_ fun v hv => ?_
  · rw [Session.begun_outputs]
    cases payload with
    | null => exact Or.inr ⟨rfl, rfl⟩
    | _ => exact recorded_insert_self _ _ _ _ _
  · rw [Session.begun_frontier, hs.idle idle, List.mem_singleton] at hv
    exact ⟨start, List.mem_of_find?_eq_some runnable.start, by rw [hv], Or.inl ⟨by rw [hv], rfl⟩⟩

end Supplied

theorem Passed.supplied (runnable : i.workflow.Runnable start) (h : i.Passed p s) : Supplied i start p s := by
  induction h with
  | new runId world events =>
    constructor
    case idle => intro _; rfl
    case started => intro h; exact absurd rfl h
    case pending => intro v hv; cases hv
    case waiting => intro h; cases h
  | noStart payload _ _ hstart =>
    rw [runnable.start] at hstart
    cases hstart
  | begin payload _ idle hstart ih =>
    rw [runnable.start] at hstart
    cases hstart
    exact ih.begin runnable idle payload
  | move _ h ih => exact ih.move runnable h

/-- The visit at which a run failed has an excuse: its step was found, is no tool and was fed. -/
theorem Passed.excused (runnable : i.workflow.Runnable start) (h : i.Passed p t) (failed : t.state.status = .failed) :
    Excused i p t := by
  cases h with
  | new _ _ _ => cases failed
  | noStart payload _ _ hstart => rw [runnable.start] at hstart; cases hstart
  | begin payload _ _ _ => rw [Session.begun_status] at failed; cases failed
  | move hs h =>
    have supplied := hs.supplied runnable
    cases h with
    | pass running _ => cases running.symm.trans failed
    | complete running _ => cases running.symm.trans failed
    | wait _ _ => cases failed
    | finish _ _ => cases failed
    | answer _ _ _ => cases failed
    | unknown _ next step =>
      obtain ⟨n, hn⟩ := supplied.exists_step runnable next
      rw [hn] at step
      cases step
    | lost waiting current =>
      obtain ⟨n, hn⟩ := supplied.exists_current runnable waiting
      rw [hn] at current
      cases current
    | @fail v rest n f world running visits =>
      refine ⟨_, v, rest, n, f, world, hs, visits, rfl, ?_⟩
      have fed := supplied.pending v (visits.next ▸ List.mem_cons_self)
      rcases fail_cases visits.effect with ⟨value, request, reads, asks, h⟩ | ⟨kind, h⟩ | h | ⟨kind, h⟩ | kind
      · exact .chat reads asks h
      · exact .agent kind h
      · obtain ⟨name, rfl⟩ := modelOf_error h
        exact .provider h
      · exact fed.excuse runnable visits.step kind h world
      · exact absurd kind (runnable.noTools n (Workflow.mem_of_step? visits.step).1)

/-- A run of a compiled workflow fails only for a reason that lies outside the workflow. -/
theorem failed_excused {g : Graph} {settings : Settings} {configs : ToolConfigs} {order : SearchOrder}
    (distinct : (g.edges.map (·.id)).Nodup) (compiled : g.compile settings configs order = .ok i.workflow)
    (reached : i.Reached p s) (failed : s.state.status = .failed) : Excused i p s := by
  obtain ⟨start, runnable⟩ := Graph.compile_runnable distinct compiled
  exact reached.passed.excused runnable failed

/-- Without a payload the splitter after the start finds nothing to read. -/
theorem splitCollect_excused :
    let w : Workflow := ⟨Sample.splitCollect.compiled .empty .breadthFirst 0, Sample.settings⟩
    let i : Interpreter (Script ChatRequest String) := ⟨w, ⟨Script.chat, fun _ s => (.ok "", s)⟩, defaultMaxTokens⟩
    ∃ t, (∃ r, i.run 2 .null ⟨{ runId := "first" }, ⟨[], []⟩, []⟩ = some (r, t)) ∧ t.state.status = .failed ∧
      i.Excused (some .null) t := by
  intro w i
  have hrun : (i.run 2 .null ⟨{ runId := "first" }, ⟨[], []⟩, []⟩).map (·.2.state.status) = some .failed := by decide +kernel
  obtain ⟨⟨r, t⟩, hrun, failed⟩ := Option.map_eq_some_iff.mp hrun
  have reached : i.Reached (some .null) t := Reached.run (.new "first" _) hrun
  have compiled : Sample.splitCollect.compile Sample.settings .empty .breadthFirst = .ok i.workflow :=
    Graph.compile_of_firstOfKind? (by decide) _ _ _
  exact ⟨t, ⟨r, hrun⟩, failed, failed_excused (by decide) compiled reached failed⟩

end Interpreter
end EventFlow
