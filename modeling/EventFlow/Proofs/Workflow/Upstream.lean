/-
  EventFlow.Proofs.Workflow.Upstream — an agent is given the nearest recorded value.

  Behind an agent stands a chain of steps (`upstream`): the producer of the event that led to it, or
  else its first producer, and then the first producer of each. The search for an input goes along the
  chain and stops at the first value, at the end of the chain, or at a step that it has come by before.
  As a loop it counts nothing (`searchFrom`): it ends since the steps that it has come by are different
  steps of the workflow, and there are only so many.

  Proved:
  - `searchFrom_eq`: the loop comes to what the search comes to, with one round more than there are
    steps left at most.
  - `searchFrom_halts`: where it ends, by induction on the rounds; what it has come by is a `Trail`.
  - `upstream_repeats`: once a step comes again, nothing new comes.
  - `agentInput_nearest`: so the first recorded value is found, and there is none if the search fails.
-/

import EventFlow.Proofs.Compilation.Nesting
import EventFlow.Proofs.Workflow.Lookup

namespace EventFlow.Workflow

variable {w : Workflow} {s : Step} {via : Option Event} {outputs : Outputs}

/-! ## The chain -/

/-- The steps that stand behind a step. The event that led to it tells where to start. -/
def upstream (w : Workflow) (s : Step) (via : Option Event) : Nat → Option Step
  | 0 => (via.bind w.producerOf?) <|> w.firstProducer? s
  | k + 1 => (upstream w s via k).bind w.firstProducer?

def downstream (w : Workflow) (s : Step) (via : Option Event) : Nat → Step
  | 0 => s
  | k + 1 => (upstream w s via k).getD s

/-- The chain goes on so far, and nothing is recorded there. -/
def Silent (w : Workflow) (s : Step) (via : Option Event) (outputs : Outputs) (k : Nat) : Prop :=
  ∀ j < k, ∃ p, w.upstream s via j = some p ∧ outputs.get? p.id = none

theorem mem_of_firstProducer? {p : Step} (h : w.firstProducer? s = some p) : p ∈ w.steps := by
  obtain ⟨e, -, producer⟩ := List.mem_filterMap.mp (List.mem_of_head? h)
  exact (mem_of_producerOf? producer).1

theorem mem_of_upstream {k : Nat} {p : Step} (h : w.upstream s via k = some p) : p ∈ w.steps := by
  cases k with
  | zero =>
    rw [upstream] at h
    cases producer : via.bind w.producerOf? with
    | none => rw [producer] at h; exact mem_of_firstProducer? h
    | some q =>
      rw [producer] at h
      cases Option.some.inj h
      obtain ⟨e, -, producer⟩ := Option.bind_eq_some_iff.mp producer
      exact (mem_of_producerOf? producer).1
  | succ k =>
    obtain ⟨q, -, first⟩ := Option.bind_eq_some_iff.mp h
    exact mem_of_firstProducer? first

/-- Once a step comes again, nothing new comes. -/
theorem upstream_repeats {j k : Nat} (again : j < k) (same : w.upstream s via j = w.upstream s via k) (n : Nat) :
    ∃ m < k, w.upstream s via n = w.upstream s via m := by
  induction n with
  | zero => exact ⟨0, by omega, rfl⟩
  | succ n ih =>
    obtain ⟨m, hm, behind⟩ := ih
    have next : w.upstream s via (n + 1) = w.upstream s via (m + 1) := by rw [upstream, behind, upstream]
    by_cases inside : m + 1 < k
    · exact ⟨m + 1, inside, next⟩
    · obtain rfl : m + 1 = k := by omega
      exact ⟨j, again, next.trans same.symm⟩

/-! ## The search as a loop -/

/-- Goes on from `current` to its producer, unless it came by there before. Nothing comes of a loop that
    needs more rounds. -/
def searchFrom (w : Workflow) (outputs : Outputs) (agent : String) :
    Nat → List String → Step → Option Step → Option (Result String)
  | 0, _, _, _ => none
  | rounds + 1, seen, current, producer =>
    match producer with
    | none => some (.error (.inputNotFound agent current.id))
    | some p =>
      match outputs.get? p.id with
      | some value => some (.ok value.plainText)
      | none =>
        if p.id ∈ seen then some (.error (.inputNotFound agent p.id))
        else searchFrom w outputs agent rounds (seen ++ [p.id]) p (w.firstProducer? p)

/-- The ids that are left are those that the loop has not seen, and each round takes one of them. -/
theorem searchFrom_eq {agent : String} {rounds : Nat} {seen unseen : List String} {current : Step}
    {producer : Option Step} (nodup : unseen.Nodup) (left : ∀ id ∈ w.stepIds, id ∈ unseen ↔ id ∉ seen)
    (known : ∀ p, producer = some p → p ∈ w.steps) (enough : unseen.length < rounds) :
    w.searchFrom outputs agent rounds seen current producer =
      some (w.nearestText outputs agent unseen current producer) := by
  induction rounds generalizing seen unseen current producer with
  | zero => omega
  | succ rounds ih =>
    cases producer with
    | none => simp only [searchFrom, nearestText]
    | some p =>
      rw [nearestText]
      have member : p.id ∈ w.stepIds := List.mem_eraseDups.mpr (List.mem_map_of_mem (known p rfl))
      cases value : outputs.get? p.id with
      | some value => simp only [searchFrom, value]
      | none =>
        simp only [searchFrom, value]
        by_cases fresh : p.id ∈ unseen
        · rw [if_neg ((left _ member).mp fresh), if_pos fresh]
          refine ih (nodup.erase _) (fun id hid => ?_) (fun q => mem_of_firstProducer?) ?_
          · rw [nodup.mem_erase_iff, left id hid, List.mem_append, List.mem_singleton, not_or, and_comm]
          · have := List.length_erase_of_mem fresh
            have := List.length_pos_of_mem fresh
            omega
        · rw [if_pos (Decidable.not_not.mp fun unmet => fresh ((left _ member).mpr unmet)), if_neg fresh]

theorem length_stepIds_le (w : Workflow) : w.stepIds.length ≤ w.steps.length := by
  have known : w.stepIds ⊆ w.steps.map (·.id) := fun _ hid => List.mem_eraseDups.mp hid
  have fewer := (List.subperm_of_subset (eraseDups_nodup _) known).length_le
  rwa [List.length_map] at fewer

/-- However a workflow goes in circles, the loop comes to an end. -/
theorem searchFrom_terminates (w : Workflow) (s : Step) (via : Option Event) (outputs : Outputs) {rounds : Nat}
    (enough : w.steps.length < rounds) :
    w.searchFrom outputs s.id rounds [] s (w.upstream s via 0) = some (w.agentInput s via outputs) :=
  searchFrom_eq (eraseDups_nodup _) (fun id hid => by simp [hid]) (fun p => mem_of_upstream)
    (Nat.lt_of_le_of_lt w.length_stepIds_le enough)

/-! ## Where the search ends -/

/-- The steps that the search has come by: the beginning of the chain, where nothing is recorded and no
    step comes twice. -/
structure Trail (w : Workflow) (s : Step) (via : Option Event) (outputs : Outputs) (trail : List Step) : Prop where
  chain : ∀ j p, trail[j]? = some p → w.upstream s via j = some p
  silent : ∀ p ∈ trail, outputs.get? p.id = none
  nodup : (trail.map (·.id)).Nodup

/-- Why the search ends at this place of the chain, and with what. -/
inductive Halts (w : Workflow) (s : Step) (via : Option Event) (outputs : Outputs) (k : Nat) : Result String → Prop
  | recorded {p : Step} {value : Json} (here : w.upstream s via k = some p) (found : outputs.get? p.id = some value) :
      Halts w s via outputs k (.ok value.plainText)
  | ended (here : w.upstream s via k = none) :
      Halts w s via outputs k (.error (.inputNotFound s.id (w.downstream s via k).id))
  | repeated {p : Step} {j : Nat} (here : w.upstream s via k = some p) (again : j < k)
      (before : w.upstream s via j = some p) : Halts w s via outputs k (.error (.inputNotFound s.id p.id))

namespace Trail

variable {trail : List Step} (h : w.Trail s via outputs trail)

theorem nil (w : Workflow) (s : Step) (via : Option Event) (outputs : Outputs) : w.Trail s via outputs [] where
  chain _ _ h := by cases h
  silent _ h := by cases h
  nodup := List.nodup_nil

include h

theorem silent_before : w.Silent s via outputs trail.length := fun j hj =>
  ⟨trail[j], h.chain j _ (List.getElem?_eq_getElem hj), h.silent _ (List.getElem_mem hj)⟩

theorem append {p : Step} (here : w.upstream s via trail.length = some p) (unrecorded : outputs.get? p.id = none)
    (fresh : p.id ∉ trail.map (·.id)) : w.Trail s via outputs (trail ++ [p]) where
  chain j q hq := by
    rcases Nat.lt_or_ge j trail.length with inside | outside
    · rw [List.getElem?_append_left inside] at hq
      exact h.chain j q hq
    · rw [List.getElem?_append_right outside, List.getElem?_singleton] at hq
      split at hq
      case isTrue last =>
        cases Option.some.inj hq
        rwa [show j = trail.length by omega]
      case isFalse => cases hq
  silent q hq := by
    rcases List.mem_append.mp hq with hq | hq
    · exact h.silent q hq
    · rwa [List.mem_singleton.mp hq]
  nodup := by
    rw [List.map_append, List.map_singleton]
    exact List.concat_eq_append ▸ h.nodup.concat fresh

/-- No step of a trail comes twice. -/
theorem upstream_ne {j k : Nat} (before : j < k) (inside : k < trail.length) :
    w.upstream s via j ≠ w.upstream s via k := by
  intro same
  have hj := List.getElem?_eq_getElem (Nat.lt_trans before inside)
  have hk := List.getElem?_eq_getElem inside
  rw [h.chain j _ hj, h.chain k _ hk] at same
  have ids : (trail.map (·.id))[j]? = (trail.map (·.id))[k]? := by
    rw [List.getElem?_map, List.getElem?_map, hj, hk, same]
  exact List.nodup_iff_getElem?_ne_getElem?.mp h.nodup j k before (by rwa [List.length_map]) ids

end Trail

/-- From any trail the loop goes on along the chain, to where it ends. -/
theorem searchFrom_halts (distinct : (w.steps.map (·.id)).Nodup) {rounds : Nat} {trail : List Step} {r : Result String}
    (h : w.Trail s via outputs trail)
    (done : w.searchFrom outputs s.id rounds (trail.map (·.id)) (w.downstream s via trail.length)
      (w.upstream s via trail.length) = some r) :
    ∃ trail, w.Trail s via outputs trail ∧ w.Halts s via outputs trail.length r := by
  induction rounds generalizing trail with
  | zero => cases done
  | succ rounds ih =>
    cases here : w.upstream s via trail.length with
    | none =>
      rw [here] at done
      cases Option.some.inj done
      exact ⟨trail, h, .ended here⟩
    | some p =>
      rw [here] at done
      cases recorded : outputs.get? p.id with
      | some value =>
        simp only [searchFrom, recorded] at done
        cases done
        exact ⟨trail, h, .recorded here recorded⟩
      | none =>
        simp only [searchFrom, recorded] at done
        by_cases seen : p.id ∈ trail.map (·.id)
        · rw [if_pos seen] at done
          cases done
          obtain ⟨q, hq, same⟩ := List.mem_map.mp seen
          obtain ⟨j, hj⟩ := List.mem_iff_getElem?.mp hq
          have before := h.chain j q hj
          obtain rfl := eq_of_id_eq distinct (mem_of_upstream before) (mem_of_upstream here) same
          exact ⟨trail, h, .repeated here (List.getElem?_eq_some_iff.mp hj).1 before⟩
        · rw [if_neg seen] at done
          refine ih (h.append here recorded seen) ?_
          rw [List.map_append, List.map_singleton, List.length_append, List.length_singleton]
          show w.searchFrom outputs s.id rounds _ ((w.upstream s via trail.length).getD s)
            ((w.upstream s via trail.length).bind w.firstProducer?) = _
          rw [here]
          exact done

/-- Where the search of an agent ends. -/
theorem agentInput_halts (distinct : (w.steps.map (·.id)).Nodup) (s : Step) (via : Option Event) (outputs : Outputs) :
    ∃ trail, w.Trail s via outputs trail ∧ w.Halts s via outputs trail.length (w.agentInput s via outputs) :=
  searchFrom_halts distinct (.nil w s via outputs)
    (w.searchFrom_terminates s via outputs (Nat.lt_succ_self w.steps.length))

/-! ## The nearest value -/

section

variable {trail : List Step} {r : Result String} {k : Nat} (h : w.Trail s via outputs trail)
  (halts : w.Halts s via outputs trail.length r) (silent : w.Silent s via outputs k)

include h halts silent

/-- The search does not stop before the first value of the chain, nor go past it. -/
theorem Halts.ok_of_first {p : Step} {value : Json} (here : w.upstream s via k = some p)
    (found : outputs.get? p.id = some value) : r = .ok value.plainText := by
  -- Nothing is recorded at any place that the search has come by.
  have loud : ∀ m < trail.length, w.upstream s via k ≠ w.upstream s via m := by
    intro m hm same
    obtain ⟨q, there, unrecorded⟩ := h.silent_before m hm
    cases here.symm.trans (same.trans there)
    cases found.symm.trans unrecorded
  have reached : trail.length ≤ k := Nat.le_of_not_lt fun beyond => loud k beyond rfl
  rcases Nat.lt_or_eq_of_le reached with short | rfl
  · obtain ⟨q, there, unrecorded⟩ := silent _ short
    cases halts with
    | recorded here' found' => cases here'.symm.trans there; cases found'.symm.trans unrecorded
    | ended here' => cases here'.symm.trans there
    | repeated here' again before =>
      obtain ⟨m, hm, same⟩ := upstream_repeats again (before.trans here'.symm) k
      exact absurd same (loud m hm)
  · cases halts with
    | recorded here' found' => cases here'.symm.trans here; cases found'.symm.trans found; rfl
    | ended here' => cases here'.symm.trans here
    | repeated here' again before => exact absurd (here'.trans before.symm) (loud _ again)

/-- The search fails if the chain ends or repeats without a value. -/
theorem Halts.error_of_dead (dead : w.upstream s via k = none ∨ ∃ j < k, w.upstream s via j = w.upstream s via k) :
    ∃ u, r = .error (.inputNotFound s.id u) := by
  cases halts with
  | ended => exact ⟨_, rfl⟩
  | repeated => exact ⟨_, rfl⟩
  | @recorded p value here found =>
    exfalso
    rcases Nat.lt_trichotomy trail.length k with early | rfl | late
    · obtain ⟨q, there, unrecorded⟩ := silent _ early
      cases here.symm.trans there
      cases found.symm.trans unrecorded
    · rcases dead with none | ⟨j, hj, same⟩
      · cases here.symm.trans none
      · obtain ⟨q, there, unrecorded⟩ := silent j hj
        cases here.symm.trans (same.symm.trans there)
        cases found.symm.trans unrecorded
    · rcases dead with none | ⟨j, hj, same⟩
      · obtain ⟨q, there, -⟩ := h.silent_before k late
        cases none.symm.trans there
      · exact h.upstream_ne hj late same

end

/-- The search ends in every workflow. It gives the first value that is recorded along the chain, and
    fails for want of an input just if the chain ends or repeats before that. -/
theorem agentInput_nearest (distinct : (w.steps.map (·.id)).Nodup) (s : Step) (via : Option Event) (outputs : Outputs) :
    (∀ rounds, w.steps.length < rounds →
      w.searchFrom outputs s.id rounds [] s (w.upstream s via 0) = some (w.agentInput s via outputs)) ∧
    (∀ text, w.agentInput s via outputs = .ok text ↔ ∃ k p value, w.Silent s via outputs k ∧
      w.upstream s via k = some p ∧ outputs.get? p.id = some value ∧ value.plainText = text) ∧
    (∀ f, w.agentInput s via outputs = .error f → ∃ k u, w.Silent s via outputs k ∧ f = .inputNotFound s.id u.id ∧
      (w.upstream s via k = none ∧ u = w.downstream s via k ∨
        w.upstream s via k = some u ∧ ∃ j < k, w.upstream s via j = some u)) ∧
    ∀ k, w.Silent s via outputs k →
      (w.upstream s via k = none ∨ ∃ j < k, w.upstream s via j = w.upstream s via k) →
      ∃ u, w.agentInput s via outputs = .error (.inputNotFound s.id u) := by
  obtain ⟨trail, h, halts⟩ := agentInput_halts distinct s via outputs
  refine ⟨fun rounds enough => w.searchFrom_terminates s via outputs enough, fun text => ⟨fun ok => ?_, ?_⟩,
    fun f error => ?_, fun k silent dead => halts.error_of_dead h silent dead⟩
  · rw [ok] at halts
    cases halts with
    | recorded here found => exact ⟨trail.length, _, _, h.silent_before, here, found, rfl⟩
  · rintro ⟨k, p, value, silent, here, found, rfl⟩
    exact halts.ok_of_first h silent here found
  · rw [error] at halts
    cases halts with
    | ended here => exact ⟨trail.length, _, h.silent_before, rfl, Or.inl ⟨here, rfl⟩⟩
    | repeated here again before => exact ⟨trail.length, _, h.silent_before, rfl, Or.inr ⟨here, _, again, before⟩⟩

/-- Behind the agent stands a step, and behind that two steps that lead to each other. -/
def roundabout : Workflow where
  steps := [
    ⟨"agent", .promptAgent {}, some (.single ⟨"out"⟩), none⟩,
    ⟨"exit", .splitter none none, some (.single ⟨"east"⟩), some (.single ⟨"out"⟩)⟩,
    ⟨"north", .splitter none none, some (.single ⟨"west"⟩), some (.single ⟨"east"⟩)⟩,
    ⟨"south", .splitter none none, some (.single ⟨"east"⟩), some (.single ⟨"west"⟩)⟩]

/-- It finds the value of the last step, and otherwise stops where it comes by again. -/
theorem roundabout_nearest :
    (roundabout.steps.map (·.id)).Nodup ∧
      roundabout.agentInput roundabout.steps[0] none (Dictionary.insert .empty "south" (.str "here")) = .ok "here" ∧
      (∃ u, roundabout.agentInput roundabout.steps[0] none .empty = .error (.inputNotFound "agent" u)) ∧
      roundabout.searchFrom .empty "agent" 5 [] roundabout.steps[0] (some roundabout.steps[1]) =
        some (roundabout.agentInput roundabout.steps[0] none .empty) := by
  have distinct : (roundabout.steps.map (·.id)).Nodup := by decide
  have before : roundabout.Silent roundabout.steps[0] none (Dictionary.insert .empty "south" (.str "here")) 2 := fun
    | 0, _ => ⟨_, rfl, rfl⟩
    | 1, _ => ⟨_, rfl, rfl⟩
  have around : roundabout.Silent roundabout.steps[0] none .empty 3 := fun
    | 0, _ => ⟨_, rfl, rfl⟩
    | 1, _ => ⟨_, rfl, rfl⟩
    | 2, _ => ⟨_, rfl, rfl⟩
  obtain ⟨-, found, -, -⟩ := agentInput_nearest distinct roundabout.steps[0] none (.insert .empty "south" (.str "here"))
  obtain ⟨ends, -, -, dead⟩ := agentInput_nearest distinct roundabout.steps[0] none .empty
  exact ⟨distinct, (found "here").mpr ⟨2, roundabout.steps[3], .str "here", before, rfl, rfl, rfl⟩,
    dead 3 around (Or.inr ⟨1, by decide, rfl⟩), ends 5 (by decide)⟩

end EventFlow.Workflow
