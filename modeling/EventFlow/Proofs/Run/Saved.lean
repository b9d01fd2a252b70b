/-
  EventFlow.Proofs.Run.Saved — the state of a run is read as it was written.

  A state has texts, lists of texts, pending visits and the recorded values. The values are any JSON,
  and a reader sorts the keys of what it reads and knows numbers only as they are written. A run makes
  values of texts and of other values, so all of them are read back if the payload is
  (`Json.FreeForm`).

  Proved:
  - `RunState.read_ofTree`: a reader of states gives back the state, field by field.
  - `Passed.freeForm`: what the values of a run have in common, over every move.
  - `RunState.reread_eq`: a state that is written as text and read.
  - `RunState.eq_of_reread`: the same without a bound on how deep its values nest, if it is read at all.
-/

import EventFlow.Proofs.Json.Depth
import EventFlow.Proofs.Run.Lifecycle
import EventFlow.Run.Codec

namespace EventFlow

open Outline Reader

variable {close : Close}

theorem Visit.read_ofTree (v : Visit) : Visit.read (ofTree close v.toJson) = .ok v := by
  obtain ⟨node, via⟩ := v
  cases via <;> rfl

theorem RunStatus.read_ofTree (status : RunStatus) : RunStatus.read (ofTree close (.str status.name)) = .ok status := by
  cases status <;> rfl

theorem Outputs.read_ofTree (whole : Whole close) {outputs : Outputs} (sorted : ∀ v ∈ outputs.values, v.sorted = v) :
    Outputs.read (ofTree close outputs.toJson) = .ok outputs := by
  have same : Dictionary.map id outputs = outputs := by
    cases outputs
    simp [Dictionary.map]
  have h : Outputs.read (ofTree close (.ofDictionary (Dictionary.map id outputs))) = .ok outputs :=
    map_ofTree fun v member => by rw [id, json_ofTree whole, sorted v member]
  rwa [same] at h

theorem RunState.read_ofTree (whole : Whole close) {st : RunState} (sorted : ∀ v ∈ st.outputs.values, v.sorted = v) :
    RunState.read (ofTree close st.toJson) = .ok st := by
  obtain ⟨runId, status, current, outputs, error, trail, frontier⟩ := st
  have id : text (.str runId) = .ok runId := rfl
  have texts (o : Option String) : Reader.option text (ofTree close (.ofOption .str o)) = .ok o :=
    option_ofTree fun a _ => ⟨nofun, rfl⟩
  have ids : Reader.list text (ofTree close (.arr (trail.map .str))) = .ok trail := list_ofTree whole fun _ _ => rfl
  have visits : Reader.list Visit.read (ofTree close (.arr (frontier.reverse.map Visit.toJson))) = .ok frontier.reverse :=
    list_ofTree whole fun v _ => v.read_ofTree
  show Shape.read shape { runId := "" } (.obj false
    [(.ok "runId", .str runId), (.ok "status", ofTree close (.str status.name)),
      (.ok "currentNodeId", ofTree close (.ofOption .str current)), (.ok "workflowState", ofTree close outputs.toJson),
      (.ok "error", ofTree close (.ofOption .str error)), (.ok "trail", ofTree close (.arr (trail.map .str))),
      (.ok "frontier", ofTree close (.arr (frontier.reverse.map Visit.toJson)))] .bracket) = _
  rw [Shape.read, if_neg Bool.false_ne_true, Shape.readFields_slot rfl rfl (by exact Shape.store_of id ..),
    Shape.readFields_slot rfl rfl (by exact Shape.store_of status.read_ofTree ..),
    Shape.readFields_slot rfl rfl (by exact Shape.store_of (texts current) ..),
    Shape.readFields_slot rfl rfl (by exact Shape.store_of (Outputs.read_ofTree whole sorted) ..),
    Shape.readFields_slot rfl rfl (by exact Shape.store_of (texts error) ..),
    Shape.readFields_slot rfl rfl (by exact Shape.store_of ids ..),
    Shape.readFields_slot rfl rfl (by exact Shape.store_of visits ..)]
  show Except.ok _ = _
  rw [List.reverse_reverse]

/-! ## Free-form values -/

structure Json.FreeForm (v : Json) : Prop where
  sorted : v.sorted = v
  legible : v.Legible

namespace Json

theorem sortedItems_append (xs ys : List Json) : sortedItems (xs ++ ys) = sortedItems xs ++ sortedItems ys := by
  induction xs with
  | nil => rfl
  | cons v xs ih => rw [List.cons_append, sortedItems, ih]; rfl

theorem FreeForm.str (s : String) : FreeForm (.str s) := ⟨rfl, .str s⟩

/-- A collector makes lists of values. -/
theorem FreeForm.extended {old : Option Json} {item : Json} (before : ∀ v ∈ old, FreeForm v) (new : FreeForm item) :
    FreeForm (Outputs.extended old item) := by
  have list (items : List Json) (sorted : sortedItems items = items) (legible : ∀ v ∈ items, v.Legible) :
      FreeForm (.arr (items ++ [item])) := by
    refine ⟨?_, .arr fun v member => ?_⟩
    · rw [Json.sorted, sortedItems_append, sorted, sortedItems, sortedItems, new.sorted]
    · rcases List.mem_append.mp member with member | last
      · exact legible v member
      · exact List.mem_singleton.mp last ▸ new.legible
  have pair {v : Json} (free : FreeForm v) : FreeForm (.arr [v, item]) :=
    list [v] (by rw [sortedItems, free.sorted, sortedItems]) fun x h => List.mem_singleton.mp h ▸ free.legible
  unfold Outputs.extended
  split
  · exact list [] rfl (List.forall_mem_nil _)
  · obtain ⟨sorted, legible⟩ := before _ rfl
    cases legible with
    | arr each => exact list _ (Json.arr.inj sorted) each
  · exact pair (before _ rfl)

end Json

namespace Interpreter

variable {σ : Type} {i : Interpreter σ} {s : Session σ} {p : Option Json}

theorem inputValue_ok {w : Workflow} {n : Step} {via : Option Event} {outputs : Outputs} {value : Json}
    (h : w.inputValue n via outputs = .ok value) : value ∈ outputs.values := by
  unfold Workflow.inputValue at h
  simp only at h
  split at h
  · cases h
  · split at h
    · next found => cases h; exact Dictionary.mem_values_of_get? found
    · cases h

theorem freeForm_of_complete {n : Step} {via : Option Event} {outputs : Outputs} {world world' : σ} {value : Json}
    {events : List Event} (recorded : ∀ v ∈ outputs.values, v.FreeForm)
    (h : i.effect n via outputs world = (.complete value events, world')) : value.FreeForm := by
  unfold effect at h
  cases hc : n.config <;> simp only [hc] at h <;> repeat' split at h
  all_goals first
    | cases h; done
    | cases h; exact .str _
    | cases h; exact recorded _ (inputValue_ok ‹_›)
    | cases h; exact .extended (fun v found => recorded v (Dictionary.mem_values_of_get? found))
        (recorded _ (inputValue_ok ‹_›))

theorem freeForm_insert {outputs : Outputs} (recorded : ∀ v ∈ outputs.values, v.FreeForm) (id : String) {value : Json}
    (new : value.FreeForm) : ∀ v ∈ (outputs.insert id value).values, v.FreeForm := by
  intro v member
  obtain ⟨e, among, rfl⟩ := List.mem_map.mp member
  rcases Dictionary.mem_insertSorted among with rfl | old
  · exact new
  · exact recorded e.2 (List.mem_map_of_mem old)

/-- If the payload is free-form, all recorded values are. -/
theorem Passed.freeForm (h : i.Passed p s) (payload : ∀ v ∈ p, v.FreeForm) :
    ∀ v ∈ s.state.outputs.values, v.FreeForm := by
  have fresh {s : Session σ} {p : Option Json} (h : i.Passed p s) (idle : s.state.status = .idle) :
      ∀ v ∈ s.state.outputs.values, v.FreeForm := by
    rw [h.lifecycle.idle idle]
    exact nofun
  induction h with
  | new runId world events => exact nofun
  | @noStart p s _ h idle _ =>
    show ∀ v ∈ s.state.outputs.values, v.FreeForm
    exact fresh h idle
  | @begin p s start value h idle _ =>
    rw [Session.begun_outputs]
    split
    · exact fresh h idle
    · exact freeForm_insert (fresh h idle) start.id (payload value rfl)
  | @move p s t h move ih =>
    have recorded := ih payload
    cases move with
    | complete _ visits => exact freeForm_insert recorded _ (freeForm_of_complete recorded visits.effect)
    | answer _ _ _ => exact freeForm_insert recorded _ (.str _)
    | _ => exact recorded

end Interpreter

/-! ## Reading a state back -/

theorem Visit.legible_toJson (v : Visit) : v.toJson.Legible := by
  obtain ⟨node, via⟩ := v
  refine .obj fun e member => ?_
  cases via with
  | none =>
    obtain rfl : e = ("nodeId", .str node) := List.mem_singleton.mp member
    exact .str _
  | some event =>
    obtain rfl | rfl : e = ("nodeId", .str node) ∨ e = ("via", .str event.name) := by
      simpa [Json.entry?, Event.toJson] using member
    · exact .str _
    · exact .str _

theorem RunState.legible_toJson {st : RunState} (recorded : ∀ v ∈ st.outputs.values, v.Legible) : st.toJson.Legible := by
  have texts (o : Option String) : (Json.ofOption Json.str o).Legible := by
    cases o with
    | none => exact .null
    | some s => exact .str s
  have outputs : st.outputs.toJson.Legible := .obj fun e member => recorded e.2 (List.mem_map_of_mem member)
  have trail : (Json.arr (st.trail.map .str)).Legible := .arr fun v member => by
    obtain ⟨id, -, rfl⟩ := List.mem_map.mp member
    exact .str id
  have frontier : (Json.arr (st.frontier.reverse.map Visit.toJson)).Legible := .arr fun v member => by
    obtain ⟨visit, -, rfl⟩ := List.mem_map.mp member
    exact visit.legible_toJson
  refine .obj fun e member => ?_
  simp only [List.mem_cons, List.not_mem_nil, or_false] at member
  rcases member with rfl | rfl | rfl | rfl | rfl | rfl | rfl
  · exact .str _
  · exact .str _
  · exact texts _
  · exact outputs
  · exact texts _
  · exact trail
  · exact frontier

def RunState.reread (st : RunState) : Except JsonFault RunState := Reader.ofText RunState.read st.toJson.compact

theorem RunState.reread_eq {st : RunState} (recorded : ∀ v ∈ st.outputs.values, v.FreeForm)
    (shallow : st.toJson.depth ≤ depthLimit) : st.reread = .ok st := by
  have legible := legible_toJson fun v member => (recorded v member).legible
  rw [reread, Reader.ofText, scan_compact legible, ofTreeIn_zero shallow]
  show (do let value ← RunState.read (ofTree .bracket st.toJson); _) = _
  rw [RunState.read_ofTree whole_bracket fun v member => (recorded v member).sorted]
  rfl

theorem Visit.depth_toJson (v : Visit) : v.toJson.depth ≤ 1 := by
  obtain ⟨node, via⟩ := v
  cases via <;> exact Nat.le_refl 1

/-- Only the recorded values nest deeper than two. -/
theorem RunState.depth_toJson (st : RunState) : st.toJson.depth ≤ max 3 (1 + st.outputs.toJson.depth) := by
  have texts (o : Option String) : (Json.ofOption Json.str o).depth = 0 := by cases o <;> rfl
  have trail : Json.depthItems (st.trail.map .str) ≤ 0 := Json.depthItems_le fun v member => by
    obtain ⟨id, -, rfl⟩ := List.mem_map.mp member
    exact Nat.le_refl 0
  have frontier : Json.depthItems (st.frontier.reverse.map Visit.toJson) ≤ 1 := Json.depthItems_le fun v member => by
    obtain ⟨visit, -, rfl⟩ := List.mem_map.mp member
    exact visit.depth_toJson
  simp only [toJson, Json.depth, Json.depthFields, texts]
  omega

/-- A state is read only if its values do not nest too deep. -/
theorem RunState.shallow_of_reread {st loaded : RunState} (legible : st.toJson.Legible)
    (reads : st.reread = .ok loaded) : st.toJson.depth ≤ depthLimit := by
  rw [reread, Reader.ofText, scan_compact legible] at reads
  obtain ⟨state, reads, -⟩ := bind_ok reads
  have field : (.ok "workflowState", ofTreeIn 1 st.outputs.toJson) ∈ ofTreeFieldsIn 1 [("runId", .str st.runId),
      ("status", .str st.status.name), ("currentNodeId", .ofOption .str st.current),
      ("workflowState", st.outputs.toJson), ("error", .ofOption .str st.error), ("trail", .arr (st.trail.map .str)),
      ("frontier", .arr (st.frontier.reverse.map Visit.toJson))] := by simp [ofTreeFieldsIn]
  obtain ⟨outputs, reads⟩ : ∃ outputs, Outputs.read (ofTreeIn 1 st.outputs.toJson) = .ok outputs :=
    Shape.reads_of_read reads field rfl
  have inner : 1 + st.outputs.toJson.depth ≤ depthLimit := depth_of_map reads
  exact st.depth_toJson.trans (Nat.max_le.mpr ⟨by decide, inner⟩)

theorem RunState.eq_of_reread {st loaded : RunState} (recorded : ∀ v ∈ st.outputs.values, v.FreeForm)
    (reads : st.reread = .ok loaded) : loaded = st := by
  have legible := legible_toJson fun v member => (recorded v member).legible
  rw [reread_eq recorded (shallow_of_reread legible reads)] at reads
  exact (Except.ok.inj reads).symm

end EventFlow
