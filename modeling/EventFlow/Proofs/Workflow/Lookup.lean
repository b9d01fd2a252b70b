/-
  EventFlow.Proofs.Workflow.Lookup — finding steps by id and by event.

  - `ofEvents?_cases`: wires say how many events there are.
  - `step?_eq_of_mem`: where ids are distinct, a step is found by its id.
  - `producerOf?_eq_of_unique`: an event that one step sets off has that step as producer.
  - `consumersOf_eq_of_unique`: an event that one step waits for has that step as consumer.
  - `agentInput_of_recorded`: an agent is given what the step behind its event has recorded.
-/

import EventFlow.Agent.Input
import EventFlow.Proofs.Dictionary

namespace EventFlow

/-- Where keys are distinct, an entry is found by its key. -/
theorem find?_eq_of_nodup {α : Type} {key : α → String} {l : List α} (distinct : (l.map key).Nodup) {a : α} (h : a ∈ l) :
    l.find? (key · = key a) = some a := by
  induction l with
  | nil => cases h
  | cons x l ih =>
    rw [List.map_cons, List.nodup_cons] at distinct
    obtain ⟨hx, distinct⟩ := distinct
    rcases List.mem_cons.mp h with rfl | h
    · simp
    · have hid : key a ∈ l.map key := List.mem_map_of_mem h
      have hne : key x ≠ key a := fun e => hx (e ▸ hid)
      rw [List.find?_cons_of_neg (by simpa using hne)]
      exact ih distinct h

namespace Wires

theorem ofEvents?_cases (es : List Event) :
    (es = [] ∧ ofEvents? es = none) ∨ (∃ e, es = [e] ∧ ofEvents? es = some (.single e)) ∨
      (2 ≤ es.length ∧ ofEvents? es = some (.many es)) := by
  match es with
  | [] => exact Or.inl ⟨rfl, rfl⟩
  | [e] => exact Or.inr (Or.inl ⟨e, rfl, rfl⟩)
  | a :: b :: es => exact Or.inr (Or.inr ⟨by simp, rfl⟩)

@[simp] theorem events_ofEvents? (es : List Event) : ((ofEvents? es).map events).getD [] = es := by
  rcases ofEvents?_cases es with ⟨rfl, h⟩ | ⟨e, rfl, h⟩ | ⟨-, h⟩ <;> rw [h] <;> rfl

theorem ofEvents?_eq_none_iff {es : List Event} : ofEvents? es = none ↔ es = [] := by
  rcases ofEvents?_cases es with ⟨rfl, h⟩ | ⟨e, rfl, h⟩ | ⟨hl, h⟩
  · simp [h]
  · simp [h]
  · rw [h]
    constructor
    · intro h; cases h
    · rintro rfl; simp at hl

end Wires

namespace Step

theorem acceptsEvent_iff {s : Step} {e : Event} : s.acceptsEvent e = true ↔ e ∈ s.accepted :=
  List.contains_iff_mem

theorem emitsEvent_iff {s : Step} {e : Event} : s.emitsEvent e = true ↔ e ∈ s.emitted :=
  List.contains_iff_mem

/-- The event of a branch is one of those that the step may set off. -/
theorem mem_emitted_of_branch? {s : Step} {handle : String} {e : Event} (h : s.branch? handle = some e) :
    e ∈ s.emitted := by
  obtain ⟨w, hw, hb⟩ := Option.bind_eq_some_iff.mp h
  cases w with
  | single _ => cases hb
  | many _ => cases hb
  | branches d =>
    rw [emitted, hw]
    exact Dictionary.mem_values_of_get? hb

theorem branch?_toList_sublist (s : Step) (handle : String) : (s.branch? handle).toList.Sublist s.emitted := by
  cases h : s.branch? handle with
  | none => exact List.nil_sublist _
  | some e => exact List.singleton_sublist.mpr (mem_emitted_of_branch? h)

end Step

namespace Workflow

variable {w : Workflow}

theorem mem_of_step? {id : String} {s : Step} (h : w.step? id = some s) : s ∈ w.steps ∧ s.id = id :=
  ⟨List.mem_of_find?_eq_some h, by simpa using List.find?_some h⟩

theorem step?_eq_of_mem (distinct : (w.steps.map (·.id)).Nodup) {s : Step} (h : s ∈ w.steps) :
    w.step? s.id = some s := find?_eq_of_nodup distinct h

/-- The id of a step leads to a step. -/
theorem exists_step? (w : Workflow) {s : Step} (h : s ∈ w.steps) : ∃ n, w.step? s.id = some n :=
  Option.isSome_iff_exists.mp (List.find?_isSome.mpr ⟨s, h, decide_eq_true rfl⟩)

theorem eq_of_id_eq (distinct : (w.steps.map (·.id)).Nodup) {a b : Step} (ha : a ∈ w.steps) (hb : b ∈ w.steps)
    (h : a.id = b.id) : a = b := by
  have := step?_eq_of_mem distinct ha
  rw [h, step?_eq_of_mem distinct hb] at this
  exact (Option.some.inj this).symm

theorem mem_consumersOf_iff {e : Event} {s : Step} : s ∈ w.consumersOf e ↔ s ∈ w.steps ∧ e ∈ s.accepted := by
  rw [consumersOf, List.mem_filter, Step.acceptsEvent_iff]

theorem mem_of_producerOf? {e : Event} {p : Step} (h : w.producerOf? e = some p) : p ∈ w.steps ∧ e ∈ p.emitted :=
  ⟨List.mem_of_find?_eq_some h, Step.emitsEvent_iff.mp (List.find?_some (p := fun s : Step => s.emitsEvent e) h)⟩

/-- An event that some step sets off has a producer. -/
theorem exists_producerOf? {e : Event} {p : Step} (hp : p ∈ w.steps) (he : e ∈ p.emitted) :
    ∃ q, w.producerOf? e = some q :=
  Option.isSome_iff_exists.mp (List.find?_isSome.mpr ⟨p, hp, Step.emitsEvent_iff.mpr he⟩)

theorem producerOf?_eq_of_unique {e : Event} {p : Step} (hp : p ∈ w.steps) (he : e ∈ p.emitted)
    (unique : ∀ q ∈ w.steps, e ∈ q.emitted → q = p) : w.producerOf? e = some p := by
  obtain ⟨q, hq⟩ := exists_producerOf? hp he
  obtain ⟨hqs, hqe⟩ := mem_of_producerOf? hq
  rw [hq, unique q hqs hqe]

/-- No step stands twice in the workflow, so the only consumer is listed once. -/
theorem consumersOf_eq_of_unique (distinct : (w.steps.map (·.id)).Nodup) {e : Event} {n : Step} (hn : n ∈ w.steps)
    (he : e ∈ n.accepted) (unique : ∀ m ∈ w.steps, e ∈ m.accepted → m = n) : w.consumersOf e = [n] := by
  have nodup : (w.consumersOf e).Nodup := (List.Pairwise.of_map _ (fun _ _ h e => h (congrArg Step.id e)) distinct).filter _
  have all : ∀ m ∈ w.consumersOf e, m = n := fun m hm =>
    unique m (mem_consumersOf_iff.mp hm).1 (mem_consumersOf_iff.mp hm).2
  have mem : n ∈ w.consumersOf e := mem_consumersOf_iff.mpr ⟨hn, he⟩
  generalize w.consumersOf e = ms at nodup all mem
  match ms with
  | [] => cases mem
  | [m] => rw [all m List.mem_cons_self]
  | a :: b :: ms =>
    have hab : a = b := (all a (by simp)).trans (all b (by simp)).symm
    simp [hab] at nodup

/-- An agent whose visit has an event is given what the producer has recorded, and looks no further. -/
theorem agentInput_of_recorded {n p : Step} {e : Event} {outputs : Outputs} {v : Json}
    (producer : w.producerOf? e = some p) (recorded : outputs.get? p.id = some v) :
    w.agentInput n (some e) outputs = .ok v.plainText := by
  rw [agentInput, Option.bind_some, producer]
  show w.nearestText outputs n.id w.stepIds n (some p) = _
  rw [nearestText]
  simp only [recorded]

end Workflow
end EventFlow
