/-
  EventFlow.Workflow.Order — putting steps after those that feed them.

  The next step is the first one that waits for no other step still to be placed; where
  steps wait for each other in a circle it is simply the first one.
-/

import EventFlow.Workflow.Basic

namespace EventFlow

namespace Step

/-- The first step sets off an event that the second waits for. -/
def feeds (p c : Step) : Bool := c.accepted.any p.emitsEvent

/-- No step but itself that is still pending feeds the step. -/
def isReady (pending : List (Step × Nat)) (c : Step × Nat) : Bool :=
  pending.all fun p => p.2 = c.2 || !feeds p.1 c.1

def nextPlaced (first : Step × Nat) (rest : List (Step × Nat)) : Step × Nat :=
  ((first :: rest).find? (isReady (first :: rest))).getD first

theorem nextPlaced_mem (first : Step × Nat) (rest : List (Step × Nat)) :
    nextPlaced first rest ∈ first :: rest := by
  unfold nextPlaced
  cases h : (first :: rest).find? (isReady (first :: rest)) with
  | none => simp
  | some c => exact List.mem_of_find?_eq_some h

/-- Places pending steps one by one; each is paired with its place in the given order. -/
def placeAll : List (Step × Nat) → List Step
  | [] => []
  | first :: rest =>
    (nextPlaced first rest).1 :: placeAll ((first :: rest).erase (nextPlaced first rest))
termination_by pending => pending.length
decreasing_by
  have h := List.length_erase_of_mem (nextPlaced_mem first rest)
  simp only [List.length_cons] at h ⊢
  omega

/-- The steps with producers before consumers as far as that is possible; else the given
order stands. -/
def ordered (steps : List Step) : List Step := placeAll steps.zipIdx

end Step
end EventFlow
