/-
  EventFlow.Proofs.Workflow.Order — putting steps in order loses and adds none.

  - `placeAll_perm` / `ordered_perm`: the placed steps are the given ones.
  - `ordered_eq_cons`: a first step that waits for nothing stays first.
-/

import EventFlow.Workflow.Order

namespace EventFlow.Step

theorem placeAll_perm (pending : List (Step × Nat)) : (placeAll pending).Perm (pending.map (·.1)) := by
  induction pending using placeAll.induct with
  | case1 => rw [placeAll]; exact List.Perm.refl _
  | case2 first rest ih =>
    rw [placeAll]
    have h := (List.perm_cons_erase (nextPlaced_mem first rest)).map (fun p : Step × Nat => p.1)
    exact (ih.cons _).trans h.symm

theorem ordered_perm (steps : List Step) : (ordered steps).Perm steps := by
  have h := placeAll_perm steps.zipIdx
  rwa [List.zipIdx_map_fst] at h

theorem mem_ordered_iff {steps : List Step} {s : Step} : s ∈ ordered steps ↔ s ∈ steps :=
  (ordered_perm steps).mem_iff

theorem nextPlaced_eq_of_accepted_eq_nil {first : Step × Nat} (h : first.1.accepted = [])
    (rest : List (Step × Nat)) : nextPlaced first rest = first := by
  have ready : isReady (first :: rest) first = true :=
    List.all_eq_true.mpr fun p _ => by simp [feeds, h]
  rw [nextPlaced, List.find?_cons_of_pos ready, Option.getD_some]

/-- A first step that waits for nothing stays first. -/
theorem ordered_eq_cons {first : Step} (h : first.accepted = []) (rest : List Step) :
    ∃ others, ordered (first :: rest) = first :: others := by
  rw [ordered, List.zipIdx_cons, placeAll, nextPlaced_eq_of_accepted_eq_nil h]
  exact ⟨_, rfl⟩

end EventFlow.Step
