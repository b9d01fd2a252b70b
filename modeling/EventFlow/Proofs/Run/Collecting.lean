/-
  EventFlow.Proofs.Run.Collecting — a collector loses no arrival and takes none twice.

  The list of a collector stands among the recorded values, where every other step overwrites its own.
  It is written by the collector's visits only: ids are distinct, the payload goes to the start and an
  answer to a step that asks. Each visit that is carried out to its end puts what it has read behind
  the rest, so the list is what these visits have read, one after the other. That may be the list
  itself, in a circle.

  What a visit reads depends on the values recorded before it, which a state does not keep. The trace of
  the run gives them (`Trace.recorded`), deed by deed.

  Proved:
  - `Traced.recorded`: the trace gives the recorded values.
  - `collector_cases`: a collector puts what it reads behind its list, or fails.
  - `Traced.gathered`: the list is what the visits have read, at every point of a run.
  - `Onward.items_prefix`: what stands in the list stays there.
  - `collectors_gather`: all of it, also for runs that are saved and loaded on the way.
-/

import EventFlow.Proofs.Run.Resuming
import EventFlow.Proofs.Run.Trace
import Mathlib.Data.List.Forall2

namespace EventFlow

open Relation (ReflTransGen)

variable {σ : Type}

/-! ## Values and visits of a trace -/

namespace Deed

def recorded (outputs : Outputs) : Deed → Outputs
  | visit _ n _ e => e.recorded n outputs
  | answer n text => outputs.insert n.id (.str text)

def completion? (id : String) : Deed → Option Visit
  | visit v n _ e => if n.id = id ∧ e.completes then some v else none
  | answer .. => none

end Deed

/-- The completed visits of a step among the deeds, each with the values that were recorded before it. -/
def completionsFrom (id : String) : Outputs → List Deed → List (Visit × Outputs)
  | _, [] => []
  | outputs, d :: deeds =>
    ((d.completion? id).map fun v => (v, outputs)).toList ++ completionsFrom id (d.recorded outputs) deeds

theorem completionsFrom_concat (id : String) (outputs : Outputs) (deeds : List Deed) (d : Deed) :
    completionsFrom id outputs (deeds ++ [d]) =
      completionsFrom id outputs deeds ++
        ((d.completion? id).map fun v => (v, deeds.foldl Deed.recorded outputs)).toList := by
  induction deeds generalizing outputs with
  | nil => simp [completionsFrom]
  | cons first deeds ih => simp [completionsFrom, ih]

namespace Trace

/-- The values that a run begins with: the payload is that of the start. -/
def opened (w : Workflow) (trace : Trace) : Outputs :=
  match w.startStep?, trace.payload with
  | some start, some value => if value.isNull then .empty else Dictionary.insert .empty start.id value
  | _, _ => .empty

def recorded (w : Workflow) (trace : Trace) : Outputs := trace.deeds.foldl Deed.recorded (trace.opened w)

/-- The completed visits of a step, oldest first, each with the values that were recorded before it. -/
def completions (w : Workflow) (trace : Trace) (id : String) : List (Visit × Outputs) :=
  completionsFrom id (trace.opened w) trace.deeds

variable (w : Workflow) (trace : Trace) (d : Deed)

@[simp] theorem recorded_add : (trace.add d).recorded w = d.recorded (trace.recorded w) :=
  List.foldl_concat ..

@[simp] theorem completions_add (id : String) : (trace.add d).completions w id =
    trace.completions w id ++ ((d.completion? id).map fun v => (v, trace.recorded w)).toList :=
  completionsFrom_concat ..

end Trace

namespace Interpreter

variable {i : Interpreter σ} {s t : Session σ} {p : Option Json} {trace : Trace}

/-- An idle run has done nothing. -/
theorem Traced.deeds_of_idle (h : i.Traced trace s) (idle : s.state.status = .idle) : trace.deeds = [] := by
  cases h with
  | new _ _ _ => rfl
  | noStart _ _ _ _ => cases idle
  | begin payload _ _ _ => rw [Session.begun_status] at idle; cases idle
  | finish _ _ _ => cases idle
  | answer _ _ _ _ _ => cases idle
  | @visit _ s v rest n e world _ running _ =>
    cases e with
    | pass _ => cases running.symm.trans idle
    | complete _ _ => cases running.symm.trans idle
    | wait _ => cases idle
    | fail _ => cases idle

theorem Traced.recorded (h : i.Traced trace s) : trace.recorded i.workflow = s.state.outputs := by
  induction h with
  | new _ _ _ =>
    unfold Trace.recorded Trace.opened
    cases i.workflow.startStep? <;> rfl
  | @noStart trace s payload traced idle hstart _ =>
    show trace.deeds.foldl _ (Trace.opened _ _) = s.state.outputs
    rw [traced.deeds_of_idle idle, traced.passed.lifecycle.idle idle, Trace.opened, hstart]
    rfl
  | @begin trace s start payload traced idle hstart _ =>
    show trace.deeds.foldl _ (Trace.opened _ _) = _
    rw [traced.deeds_of_idle idle, Session.begun_outputs, traced.passed.lifecycle.idle idle, Trace.opened, hstart]
    rfl
  | visit _ _ _ ih => rw [Trace.recorded_add, ih, i.session_outputs]; rfl
  | finish _ _ _ ih => exact ih
  | answer text _ _ _ step ih =>
    rw [Trace.recorded_add, ih]
    obtain ⟨-, rfl⟩ := Workflow.mem_of_step? step
    rfl

end Interpreter

/-! ## The list of a collector -/

namespace Outputs

/-- The elements of the list that a step has recorded, if it has recorded one. -/
def items (outputs : Outputs) (id : String) : List Json :=
  match outputs.get? id with
  | some (.arr items) => items
  | _ => []

/-- The value of a collector with these elements: it has none before the first. -/
def listed : List Json → Option Json
  | [] => none
  | items => some (.arr items)

theorem extended_listed (items : List Json) (item : Json) : extended (listed items) item = .arr (items ++ [item]) := by
  cases items <;> rfl

theorem listed_concat (items : List Json) (item : Json) : listed (items ++ [item]) = some (.arr (items ++ [item])) := by
  cases items <;> rfl

theorem items_of_listed {outputs : Outputs} {id : String} {items : List Json} (h : outputs.get? id = listed items) :
    outputs.items id = items := by
  rw [Outputs.items, h]
  cases items <;> rfl

end Outputs

def Workflow.Reads (w : Workflow) (n : Step) (value : Json) (visit : Visit × Outputs) : Prop :=
  w.inputValue n visit.1.via visit.2 = .ok value

/-- The elements are what the completed visits of the step have read, and make up its recorded value. -/
structure Gathered (w : Workflow) (trace : Trace) (n : Step) (outputs : Outputs) (items : List Json) : Prop where
  reads : List.Forall₂ (w.Reads n) items (trace.completions w n.id)
  value : outputs.get? n.id = Outputs.listed items

namespace Interpreter

variable {i : Interpreter σ} {s t : Session σ} {p : Option Json} {trace : Trace} {n : Step}

theorem collector_cases (kind : n.kind = .collector) {via : Option Event} {outputs : Outputs} {world world' : σ}
    {e : Effect} (h : i.effect n via outputs world = (e, world')) :
    (∃ value, i.workflow.inputValue n via outputs = .ok value ∧
      e = .complete (Outputs.extended (outputs.get? n.id) value) n.emitted) ∨ ∃ f, e = .fail f := by
  unfold Step.kind at kind
  unfold effect at h
  cases hc : n.config with
  | collector _ _ =>
    simp only [hc] at h
    split at h
    case h_1 f _ => exact Or.inr ⟨f, (Prod.mk.inj h).1.symm⟩
    case h_2 value reads => exact Or.inl ⟨value, reads, (Prod.mk.inj h).1.symm⟩
  | _ => rw [hc] at kind; cases kind

/-- The value of a step stays if a value is recorded for a step of another kind. -/
theorem get?_insert_of_kind (distinct : (i.workflow.steps.map (·.id)).Nodup) {m : Step} (hn : n ∈ i.workflow.steps)
    (hm : m ∈ i.workflow.steps) (other : m.kind ≠ n.kind) (outputs : Outputs) (value : Json) :
    (outputs.insert m.id value).get? n.id = outputs.get? n.id := by
  rw [Dictionary.get?_insert, if_neg]
  intro same
  exact other (by rw [Workflow.eq_of_id_eq distinct hn hm same])

section

variable (distinct : (i.workflow.steps.map (·.id)).Nodup) (hn : n ∈ i.workflow.steps) (kind : n.kind = .collector)

include distinct hn kind

/-- A visit of the collector that is carried out puts what it reads behind the list, and no other visit
    touches the list. -/
theorem visit_gathers {items : List Json} (value : s.state.outputs.get? n.id = Outputs.listed items) {v : Visit}
    {rest : List Visit} {m : Step} {e : Effect} {world : σ} (visits : i.Visits s v rest m e world)
    (verdict : Option Bool) :
    ∃ more, (e.recorded m s.state.outputs).get? n.id = Outputs.listed (items ++ more) ∧
      List.Forall₂ (i.workflow.Reads n) more
        (((Deed.visit v m verdict e).completion? n.id).map fun v => (v, s.state.outputs)).toList := by
  by_cases same : m.id = n.id
  · cases Workflow.eq_of_id_eq distinct (Workflow.mem_of_step? visits.step).1 hn same
    rcases collector_cases kind visits.effect with ⟨item, reads, rfl⟩ | ⟨f, rfl⟩
    · refine ⟨[item], ?_, ?_⟩
      · show (s.state.outputs.insert n.id _).get? n.id = _
        rw [Dictionary.get?_insert_self, value, Outputs.extended_listed, Outputs.listed_concat]
      · simpa [Deed.completion?, Effect.completes, Workflow.Reads] using reads
    · refine ⟨[], ?_, ?_⟩
      · rw [List.append_nil]
        exact value
      · simp [Deed.completion?, Effect.completes]
  · refine ⟨[], ?_, ?_⟩
    · rw [List.append_nil, ← value]
      cases e with
      | complete value events => exact (Dictionary.get?_insert ..).trans (if_neg (Ne.symm same))
      | _ => rfl
    · simp [Deed.completion?, same]

/-- An answer is the value of a step that asks, so of no collector. -/
theorem get?_answered (lifecycle : Lifecycle i.workflow s.state) (waiting : s.state.status = .awaitingInput)
    {id : String} (current : s.state.current = some id) (text : String) :
    (s.state.outputs.insert id (.str text)).get? n.id = s.state.outputs.get? n.id := by
  obtain ⟨m, step, asks, here, -⟩ := lifecycle.waiting waiting
  cases Option.some.inj (current.symm.trans here)
  exact get?_insert_of_kind distinct hn (Workflow.mem_of_step? step).1 (by rw [asks, kind]; decide) _ _

theorem Traced.gathered (h : i.Traced trace s) : ∃ items, Gathered i.workflow trace n s.state.outputs items := by
  have untouched : ∀ {trace : Trace} {s : Session σ} (payload : Json), i.Traced trace s → s.state.status = .idle →
      Trace.completions i.workflow { trace with payload := some payload } n.id = [] := by
    intro trace s payload traced idle
    rw [Trace.completions, traced.deeds_of_idle idle]
    rfl
  induction h with
  | new _ _ _ => exact ⟨[], .nil, rfl⟩
  | @noStart trace s payload traced idle _ _ =>
    refine ⟨[], ?_, ?_⟩
    · rw [untouched payload traced idle]
      exact .nil
    · show s.state.outputs.get? n.id = _
      rw [traced.passed.lifecycle.idle idle]
      rfl
  | @begin trace s start payload traced idle hstart _ =>
    refine ⟨[], ?_, ?_⟩
    · rw [untouched payload traced idle]
      exact .nil
    · have isStart : start.kind = .start := by simpa using List.find?_some hstart
      rw [Session.begun_outputs, traced.passed.lifecycle.idle idle]
      split
      · rfl
      · exact get?_insert_of_kind distinct hn (List.mem_of_find?_eq_some hstart) (by rw [isStart, kind]; decide) _ _
  | @visit trace s v rest m e world traced _ visits ih =>
    obtain ⟨items, reads, value⟩ := ih
    obtain ⟨more, value', reads'⟩ := visit_gathers distinct hn kind value visits (i.verdict? m v.via s.state.outputs s.world)
    refine ⟨items ++ more, ?_, ?_⟩
    · rw [Trace.completions_add, traced.recorded]
      exact List.rel_append reads reads'
    · rw [i.session_outputs]
      exact value'
  | finish _ _ _ ih => exact ih
  | answer text traced waiting current _ ih =>
    obtain ⟨items, reads, value⟩ := ih
    refine ⟨items, ?_, ?_⟩
    · rw [Trace.completions_add]
      exact (List.append_nil _).symm ▸ reads
    · exact (get?_answered distinct hn kind traced.passed.lifecycle waiting current text).trans value

/-- A move puts new elements behind those in the list, if it touches the list at all. -/
theorem Move.gathers (lifecycle : Lifecycle i.workflow s.state) {items : List Json}
    (value : s.state.outputs.get? n.id = Outputs.listed items) (h : i.Move s t) :
    ∃ more, t.state.outputs.get? n.id = Outputs.listed (items ++ more) := by
  have kept : s.state.outputs.get? n.id = Outputs.listed (items ++ []) := by rw [List.append_nil, value]
  cases h with
  | complete _ visits =>
    obtain ⟨more, value', -⟩ := visit_gathers distinct hn kind value visits none
    exact ⟨more, value'⟩
  | answer waiting current _ => exact ⟨[], (get?_answered distinct hn kind lifecycle waiting current _).trans kept⟩
  | _ => exact ⟨[], kept⟩

/-- Whatever a run does later, the elements in the list stay there in their order. -/
theorem Resumed.items_prefix (h : i.Resumed p s) (later : ReflTransGen (i.Onward p) s t) :
    s.state.outputs.items n.id <+: t.state.outputs.items n.id := by
  induction later with
  | refl => exact List.prefix_refl _
  | @tail u t before onward ih =>
    refine ih.trans ?_
    obtain ⟨earlier, passed⟩ := (h.onwards before).passed_after
    obtain ⟨trace, traced, -⟩ := passed.exists_traced
    obtain ⟨items, -, value⟩ := traced.gathered distinct hn kind
    cases onward with
    | move move =>
      have lifecycle : Lifecycle i.workflow u.state := passed.lifecycle
      rw [Session.after_state] at value
      obtain ⟨more, value'⟩ := move.gathers distinct hn kind lifecycle value
      rw [Outputs.items_of_listed value, Outputs.items_of_listed value']
      exact List.prefix_append items more
    | reload payload loads =>
      cases passed.reload_after payload loads
      exact List.prefix_refl _

end

/-- At every point of every run of a workflow with distinct ids, a collector has recorded nothing or a
    list of what its completed visits have read, one after the other. The list only grows. -/
theorem collectors_gather (distinct : (i.workflow.steps.map (·.id)).Nodup) (h : i.Resumed p s) :
    (∃ earlier trace, i.Traced trace (s.after earlier) ∧ trace.payload = p) ∧
    ∀ n ∈ i.workflow.steps, n.kind = .collector →
      (∀ earlier trace, i.Traced trace (s.after earlier) → trace.recorded i.workflow = s.state.outputs ∧
        (trace.completions i.workflow n.id = [] → s.state.outputs.get? n.id = none) ∧
        (trace.completions i.workflow n.id ≠ [] → ∃ items, s.state.outputs.get? n.id = some (.arr items) ∧
          List.Forall₂ (i.workflow.Reads n) items (trace.completions i.workflow n.id))) ∧
      ∀ t, ReflTransGen (i.Onward p) s t → s.state.outputs.items n.id <+: t.state.outputs.items n.id := by
  obtain ⟨earlier, passed⟩ := h.passed_after
  refine ⟨⟨earlier, passed.exists_traced⟩, fun n hn kind => ⟨fun earlier trace traced => ⟨traced.recorded, ?_⟩,
    fun t later => h.items_prefix distinct hn kind later⟩⟩
  obtain ⟨items, reads, value⟩ := traced.gathered distinct hn kind
  rw [Session.after_state] at value
  rw [value]
  generalize trace.completions i.workflow n.id = visits at reads ⊢
  cases reads with
  | nil => exact ⟨fun _ => rfl, fun visited => absurd rfl visited⟩
  | cons first others =>
    refine ⟨fun unvisited => ?_, fun _ => ⟨_, rfl, .cons first others⟩⟩
    cases unvisited

/-- An answer goes to a collector, and on the way round the list goes to the collector itself. -/
def echo : Workflow where
  steps := [
    ⟨"start", .start none, none, some (.single ⟨"in"⟩)⟩,
    ⟨"ask", .userInput {}, some (.single ⟨"in"⟩), some (.single ⟨"said"⟩)⟩,
    ⟨"gather", .collector none none, some (.many [⟨"said"⟩, ⟨"again"⟩]), some (.single ⟨"gathered"⟩)⟩,
    ⟨"more", .decision none none, some (.single ⟨"gathered"⟩),
      some (.branches (.ofEntries [("true", ⟨"again"⟩), ("false", ⟨"done"⟩)]))⟩,
    ⟨"stop", .stop none, some (.single ⟨"done"⟩), none⟩]

/-- The run is saved and loaded while it waits for the answer. -/
theorem echo_gathers :
    let once : Service Nat ChatRequest String := fun _ asked => (.ok (if asked = 0 then "true" else "false"), asked + 1)
    let i : Interpreter Nat := ⟨echo, ⟨once, fun _ asked => (.ok "", asked)⟩, defaultMaxTokens⟩
    (echo.steps.map (·.id)).Nodup ∧
    ∃ s t u, (∃ r, i.run 9 .null ⟨{ runId := "first" }, 0, []⟩ = some (r, s)) ∧ s.state.status = .awaitingInput ∧
      s.reload = .ok t ∧ (∃ r, i.submit 9 "yes" t = some (r, u)) ∧ u.state.status = .finished ∧
      i.Resumed (some .null) u ∧
      ∃ items, u.state.outputs.get? "gather" = some (.arr items) ∧ (Json.arr items).compact = "[\"yes\",[\"yes\"]]" ∧
        (∃ earlier trace, i.Traced trace (u.after earlier) ∧
          List.Forall₂ (echo.Reads echo.steps[2]) items (trace.completions echo "gather")) ∧
        ∀ v, ReflTransGen (i.Onward (some .null)) u v → items <+: v.state.outputs.items "gather" := by
  intro once i
  have distinct : (echo.steps.map (·.id)).Nodup := by decide
  have course : (i.run 9 .null ⟨{ runId := "first" }, 0, []⟩).map (fun x => (x.2.state.status, x.2.state.toJson.depth,
      (i.submit 9 "yes" { state := x.2.state, world := x.2.world }).map fun y =>
        (y.2.state.status, (y.2.state.outputs.get? "gather").map Json.compact))) =
      some (.awaitingInput, 2, some (.finished, some "[\"yes\",[\"yes\"]]")) := by decide +kernel
  obtain ⟨⟨r, s⟩, asked, course⟩ := Option.map_eq_some_iff.mp course
  simp only [Prod.mk.injEq] at course
  obtain ⟨waiting, depth, course⟩ := course
  obtain ⟨⟨r', u⟩, answered, course⟩ := Option.map_eq_some_iff.mp course
  obtain ⟨finished, value⟩ := Prod.mk.inj course
  have payload : ∀ v ∈ some Json.null, v.FreeForm := by
    rintro v ⟨⟩
    exact ⟨rfl, .null⟩
  have resumed : i.Resumed (some .null) s := Resumed.run (.new "first" 0 []) asked
  have shallow : s.state.toJson.depth ≤ Outline.depthLimit := by rw [depth]; decide
  obtain ⟨before, passed⟩ := resumed.passed_after
  have recorded : ∀ v ∈ s.state.outputs.values, v.FreeForm := passed.freeForm payload
  have loads : s.reload = .ok { state := s.state, world := s.world } := by
    rw [Session.reload, RunState.reread_eq recorded shallow]
    rfl
  have reached : i.Resumed (some .null) u := (resumed.onward (.reload payload loads)).moves (submit_moves answered)
  obtain ⟨⟨earlier, trace, traced, -⟩, gathers⟩ := collectors_gather distinct reached
  obtain ⟨gathered, grows⟩ := gathers echo.steps[2] (by decide) rfl
  obtain ⟨-, absent, array⟩ := gathered earlier trace traced
  obtain ⟨list, found, text⟩ := Option.map_eq_some_iff.mp value
  obtain ⟨items, isList, reads⟩ := array fun unvisited => by cases found.symm.trans (absent unvisited)
  cases Option.some.inj (found.symm.trans isList)
  refine ⟨distinct, s, _, u, ⟨r, asked⟩, waiting, loads, ⟨r', answered⟩, finished, reached, items, found, text,
    ⟨earlier, trace, traced, reads⟩, ?_⟩
  intro v later
  have same : u.state.outputs.items "gather" = items := by rw [Outputs.items, found]
  exact same ▸ grows v later

end Interpreter
end EventFlow
