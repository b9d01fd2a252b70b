/-
  EventFlow.Compilation.Reach — which nodes can be reached, and in which order they are
  found.

  Both searches keep the list of nodes not found yet and take from it, so every node is
  found once and the search ends with the list.
-/

import EventFlow.Graph.Index

namespace EventFlow

inductive SearchOrder where
  | breadthFirst | depthFirst
  deriving DecidableEq, Inhabited

namespace Reach

/-- Those of the targets that are not found yet, each once, and what is left. -/
def takeFresh : List Nat → List Nat → List Nat × List Nat
  | [], fresh => ([], fresh)
  | t :: targets, fresh =>
    if t ∈ fresh then
      let (found, left) := takeFresh targets (fresh.erase t)
      (t :: found, left)
    else takeFresh targets fresh

theorem length_takeFresh (targets fresh : List Nat) :
    (takeFresh targets fresh).1.length + (takeFresh targets fresh).2.length = fresh.length := by
  induction targets generalizing fresh with
  | nil => simp [takeFresh]
  | cons t targets ih =>
    unfold takeFresh
    split
    · next h =>
      have := ih (fresh.erase t)
      have h' := List.length_erase_of_mem h
      have := List.length_pos_of_mem h
      simp only [List.length_cons]
      omega
    · exact ih fresh

/-- Nodes are found when they enter the queue. -/
def breadthFirst (next : Nat → List Nat) (fresh : List Nat) : List Nat → List Nat
  | [] => []
  | p :: queue =>
    p :: breadthFirst next (takeFresh (next p) fresh).2 (queue ++ (takeFresh (next p) fresh).1)
termination_by queue => fresh.length + queue.length
decreasing_by
  have := length_takeFresh (next p) fresh
  simp only [List.length_append, List.length_cons]
  omega

/-- Nodes are found when they leave the stack. -/
def depthFirst (next : Nat → List Nat) (fresh : List Nat) : List Nat → List Nat
  | [] => []
  | p :: stack =>
    if p ∈ fresh then p :: depthFirst next (fresh.erase p) (next p ++ stack)
    else depthFirst next fresh stack
termination_by stack => (fresh.length, stack.length)
decreasing_by
  · next h =>
    have := List.length_erase_of_mem h
    have := List.length_pos_of_mem h
    exact Prod.Lex.left _ _ (by omega)
  · exact Prod.Lex.right _ (by simp)

end Reach

namespace GraphIndex

/-- The positions of the nodes that the edges of a node lead to. -/
def targets (ix : GraphIndex) (pos : Nat) : List Nat := (ix.outgoing pos).map (·.target)

/-- The positions of the nodes that a search may find: tools stay with their agents. -/
def enterable (ix : GraphIndex) : List Nat :=
  (List.range ix.graph.nodes.length).filter fun pos => !ix.isTool pos

/-- The nodes that can be reached from a node, which comes first. -/
def reach (ix : GraphIndex) (order : SearchOrder) (start : Nat) : List Nat :=
  match order with
  | .breadthFirst => Reach.breadthFirst ix.targets (ix.enterable.erase start) [start]
  | .depthFirst => Reach.depthFirst ix.targets ix.enterable [start]

end GraphIndex
end EventFlow
