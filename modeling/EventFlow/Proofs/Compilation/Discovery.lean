/-
  EventFlow.Proofs.Compilation.Discovery — what a search finds, and in which order.

  A search finds the positions that edges lead to from the start without entering a tool
  (`Graph.Enters`), each of them once and the start first. Which order they come in:
  - breadth first, by the length of the shortest way from the start (`Graph.distance`). The queue holds
    nodes of one distance and then of the next, and a fresh node is at least as far as all of them
    (`Reach.Layered`);
  - depth first, as a recursion visits them (`Reach.preorder`). A node may stand on the stack several
    times, but what the stack holds is what the recursion has still to visit.

  Proved:
  - `Layered.step` / `breadthFirst_sorted`: one node leaves the queue; so the whole search goes by levels.
  - `depthFirst_append`: the search with a stack is the recursion, by induction on the recursion.
  - `mem_reach_iff_enters`: what is found, for both orders.
  - `reach_discovers`: all of it, from the first start of any graph.
-/

import EventFlow.Graph.Sample
import EventFlow.Proofs.Compilation.Drafts
import Mathlib.Logic.Relation
import Mathlib.Order.Lattice.Nat

namespace EventFlow

open Relation (ReflTransGen)

namespace Reach

variable {next : Nat → List Nat} {fresh queue : List Nat}

/-! ## Breadth first, by levels -/

/-- The queue ascends by level and spans two of them. A fresh node that can be reached is on no lower
    level than the queue, and some node one level lower that has not left the queue leads to it. -/
structure Layered (next : Nat → List Nat) (reached : Nat → Prop) (level : Nat → Nat) (queue fresh : List Nat) :
    Prop where
  nodup : (queue ++ fresh).Nodup
  queued : ∀ p ∈ queue, reached p
  sorted : queue.Pairwise (level · ≤ level ·)
  span : ∀ p ∈ queue, ∀ q ∈ queue, level q ≤ level p + 1
  ahead : ∀ p ∈ queue, ∀ x ∈ fresh, reached x → level p ≤ level x
  near : ∀ p, reached p → ∀ x ∈ next p, x ∈ fresh → reached x ∧ level x ≤ level p + 1
  led : ∀ x ∈ fresh, reached x → ∃ p, (p ∈ queue ∨ p ∈ fresh) ∧ reached p ∧ x ∈ next p ∧ level x = level p + 1

namespace Layered

variable {reached : Nat → Prop} {level : Nat → Nat} {p : Nat}

theorem head_le (h : Layered next reached level (p :: queue) fresh) : ∀ q ∈ queue, level p ≤ level q :=
  (List.pairwise_cons.mp h.sorted).1

/-- What leads to a fresh node is no lower than the head of the queue, so the fresh node is higher. -/
theorem head_lt (h : Layered next reached level (p :: queue) fresh) {x : Nat} (hx : x ∈ fresh) (hr : reached x) :
    level p < level x := by
  obtain ⟨q, hq, hqr, -, heq⟩ := h.led x hx hr
  have : level p ≤ level q := by
    rcases hq with hq | hq
    · rcases List.mem_cons.mp hq with rfl | hq
      · exact Nat.le_refl _
      · exact h.head_le q hq
    · exact h.ahead p List.mem_cons_self q hq hqr
  omega

/-- The nodes that the head of the queue leads to are one level higher. -/
theorem level_found (h : Layered next reached level (p :: queue) fresh) {x : Nat}
    (hx : x ∈ (takeFresh (next p) fresh).1) : reached x ∧ level x = level p + 1 := by
  have hf : x ∈ fresh := (takeFresh_perm (next p) fresh).mem_iff.mp (List.mem_append_left _ hx)
  obtain ⟨hr, hle⟩ := h.near p (h.queued p List.mem_cons_self) x (mem_targets_of_mem_takeFresh hx) hf
  have := h.head_lt hf hr
  exact ⟨hr, by omega⟩

/-- The head leaves the queue, and what it leads to enters. -/
theorem step (h : Layered next reached level (p :: queue) fresh) :
    Layered next reached level (queue ++ (takeFresh (next p) fresh).1) (takeFresh (next p) fresh).2 := by
  have perm := takeFresh_perm (next p) fresh
  have old : ∀ x ∈ (takeFresh (next p) fresh).2, x ∈ fresh := fun x hx => perm.mem_iff.mp (List.mem_append_right _ hx)
  have hnodup : (queue ++ (takeFresh (next p) fresh).1 ++ (takeFresh (next p) fresh).2).Nodup := by
    rw [List.append_assoc]
    exact (perm.append_left queue).nodup_iff.mpr (List.nodup_cons.mp h.nodup).2
  -- The new queue lies between the level of the head and the one above it.
  have bounds : ∀ q ∈ queue ++ (takeFresh (next p) fresh).1, reached q ∧ level p ≤ level q ∧ level q ≤ level p + 1 := by
    intro q hq
    rcases List.mem_append.mp hq with hq | hq
    · exact ⟨h.queued q (List.mem_cons_of_mem _ hq), h.head_le q hq,
        h.span p List.mem_cons_self q (List.mem_cons_of_mem _ hq)⟩
    · obtain ⟨hr, heq⟩ := h.level_found hq
      exact ⟨hr, by omega, by omega⟩
  constructor
  case nodup => exact hnodup
  case queued => exact fun q hq => (bounds q hq).1
  case sorted =>
    refine List.pairwise_append.mpr ⟨(List.pairwise_cons.mp h.sorted).2, ?_, fun a ha b hb => ?_⟩
    · refine List.pairwise_of_forall_mem_list fun a ha b hb => ?_
      have := (h.level_found ha).2
      have := (h.level_found hb).2
      omega
    · have := (bounds a (List.mem_append_left _ ha)).2.2
      have := (h.level_found hb).2
      omega
  case span =>
    intro a ha b hb
    have := (bounds a ha).2.1
    have := (bounds b hb).2.2
    omega
  case ahead =>
    intro a ha x hx hr
    have := (bounds a ha).2.2
    have := h.head_lt (old x hx) hr
    omega
  case near => exact fun q hq x hx hf => h.near q hq x hx (old x hf)
  case led =>
    intro x hx hr
    obtain ⟨q, hq, hqr, hnext, heq⟩ := h.led x (old x hx) hr
    refine ⟨q, ?_, hqr, hnext, heq⟩
    rcases hq with hq | hq
    · rcases List.mem_cons.mp hq with rfl | hq
      · -- The head leads to no node that is still fresh.
        have found := mem_takeFresh_of_mem hnext (old x hx)
        exact absurd hx (List.disjoint_of_nodup_append hnodup (List.mem_append_right _ found))
      · exact Or.inl (List.mem_append_left _ hq)
    · rcases mem_takeFresh_or (next p) hq with hq | hq
      · exact Or.inl (List.mem_append_right _ hq)
      · exact Or.inr hq

/-- A search that begins by levels goes by levels. -/
theorem breadthFirst_sorted (h : Layered next reached level queue fresh) :
    (breadthFirst next fresh queue).Pairwise (level · ≤ level ·) := by
  induction fresh, queue using breadthFirst.induct next with
  | case1 => rw [breadthFirst]; exact List.Pairwise.nil
  | case2 fresh p queue ih =>
    rw [breadthFirst]
    refine List.pairwise_cons.mpr ⟨fun x hx => ?_, ih h.step⟩
    have above := breadthFirst_ind (P := fun x => reached x ∧ level p ≤ level x) (fun q hq => ?_)
      (fun q hq y hy hf => ?_) x hx
    · exact above.2
    · rcases List.mem_append.mp hq with hq | hq
      · exact ⟨h.queued q (List.mem_cons_of_mem _ hq), h.head_le q hq⟩
      · obtain ⟨hr, heq⟩ := h.level_found hq
        exact ⟨hr, by omega⟩
    · have old : y ∈ fresh := (takeFresh_perm (next p) fresh).mem_iff.mp (List.mem_append_right _ hf)
      have hr := (h.near q hq.1 y hy old).1
      exact ⟨hr, h.ahead p List.mem_cons_self y old hr⟩

end Layered

/-! ## Depth first, as a recursion -/

structure Preorder (fresh : List Nat) where
  found : List Nat
  left : List Nat
  shrinks : left.length ≤ fresh.length

theorem length_erase_lt {p : Nat} (hp : p ∈ fresh) : (fresh.erase p).length < fresh.length := by
  have := List.length_erase_of_mem hp
  have := List.length_pos_of_mem hp
  omega

/-- What lies below a fresh node leaves fewer nodes fresh. -/
theorem Preorder.left_lt {p : Nat} (hp : p ∈ fresh) (below : Preorder (fresh.erase p)) :
    below.left.length < fresh.length := Nat.lt_of_le_of_lt below.shrinks (length_erase_lt hp)

/-- Visits the nodes one after the other: a node that is still fresh comes first, then all that its own
    targets lead to, then the nodes after it. -/
def preorder (next : Nat → List Nat) (fresh : List Nat) : List Nat → Preorder fresh
  | [] => ⟨[], fresh, Nat.le_refl _⟩
  | p :: nodes =>
    if p ∈ fresh then
      let below := preorder next (fresh.erase p) (next p)
      let after := preorder next below.left nodes
      ⟨p :: (below.found ++ after.found), after.left,
        Nat.le_trans after.shrinks (Nat.le_trans below.shrinks (List.length_erase_le))⟩
    else preorder next fresh nodes
termination_by nodes => (fresh.length, nodes.length)
decreasing_by
  · exact Prod.Lex.left _ _ (length_erase_lt ‹p ∈ fresh›)
  · exact Prod.Lex.left _ _ (below.left_lt ‹p ∈ fresh›)
  · exact Prod.Lex.right _ (by simp)

/-- The search with a stack finds first what the recursion finds from the nodes on top. -/
theorem depthFirst_append (nodes stack : List Nat) :
    depthFirst next fresh (nodes ++ stack) =
      (preorder next fresh nodes).found ++ depthFirst next (preorder next fresh nodes).left stack := by
  induction fresh, nodes using preorder.induct next generalizing stack with
  | case1 fresh => simp [preorder]
  | case2 fresh p nodes hp below ihBelow ihAfter =>
    rw [List.cons_append, depthFirst, if_pos hp, ihBelow, ihAfter, preorder, if_pos hp]
    simp [below]
  | case3 fresh p nodes hp ih =>
    rw [List.cons_append, depthFirst, if_neg hp, ih, preorder, if_neg hp]

theorem depthFirst_eq_preorder (next : Nat → List Nat) (fresh nodes : List Nat) :
    depthFirst next fresh nodes = (preorder next fresh nodes).found := by
  have h : depthFirst next fresh (nodes ++ []) = (preorder next fresh nodes).found ++ _ := depthFirst_append nodes []
  rwa [List.append_nil, depthFirst, List.append_nil] at h

end Reach

namespace Graph

variable {g : Graph} {order : SearchOrder} {start p t : Nat}

/-! ## Where edges lead -/

/-- An edge leads from the node at the one position to the node at the other, which is no tool. -/
def Enters (g : Graph) (p t : Nat) : Prop :=
  ∃ e ∈ g.edges, g.position? e.source = some p ∧ g.position? e.target = some t ∧ g.index.isTool t = false

def successors (g : Graph) (p : Nat) : List Nat :=
  (g.edges.filter fun e => g.position? e.source = some p).filterMap fun e => g.position? e.target

theorem targets_eq_successors (g : Graph) (p : Nat) : g.index.targets p = g.successors p := by
  have known : ∀ l ∈ g.index.outgoing p, g.position? l.edge.target = some l.target := by
    intro l hl
    exact (mem_links_iff.mp (GraphIndex.mem_outgoing_iff.mp hl).1).2.2
  have edges : (g.index.outgoing p).map Link.edge =
      (g.edges.filter fun e => g.position? e.source = some p).filter fun e => (g.position? e.target).isSome := by
    rw [List.filter_filter]
    refine (map_edge_filter_source p).trans (List.filter_congr fun e _ => ?_)
    rw [Bool.and_comm]
  calc g.index.targets p
      = ((g.index.outgoing p).map Link.edge).filterMap fun e => g.position? e.target := by
        rw [List.filterMap_map, GraphIndex.targets, ← List.filterMap_eq_map]
        exact List.filterMap_congr fun l hl => (known l hl).symm
    _ = g.successors p := by
        rw [edges, List.filterMap_filter, successors]
        refine List.filterMap_congr fun e _ => ?_
        cases g.position? e.target <;> rfl

theorem enters_iff : g.Enters p t ↔ t ∈ g.index.targets p ∧ t ∈ g.index.enterable := by
  rw [targets_eq_successors, GraphIndex.mem_enterable_iff]
  simp only [Enters, successors, List.mem_filterMap, List.mem_filter, decide_eq_true_eq]
  constructor
  · rintro ⟨e, he, source, target, tool⟩
    obtain ⟨n, hn, -⟩ := leads_of_position? target
    exact ⟨⟨e, ⟨he, source⟩, target⟩, (List.getElem?_eq_some_iff.mp hn.1).1, tool⟩
  · rintro ⟨⟨e, ⟨he, source⟩, target⟩, -, tool⟩
    exact ⟨e, he, source, target, tool⟩

/-! ## Distances -/

inductive Walks (g : Graph) (start : Nat) : Nat → Nat → Prop
  | nil : Walks g start 0 start
  | snoc {n p t : Nat} : Walks g start n p → g.Enters p t → Walks g start (n + 1) t

/-- The number of edges on a shortest way. -/
noncomputable def distance (g : Graph) (start p : Nat) : Nat := sInf {n | g.Walks start n p}

theorem exists_walks_iff : (∃ n, g.Walks start n p) ↔ ReflTransGen g.Enters start p := by
  constructor
  · rintro ⟨n, walks⟩
    induction walks with
    | nil => exact .refl
    | snoc _ enters ih => exact ih.tail enters
  · intro reached
    induction reached with
    | refl => exact ⟨0, .nil⟩
    | tail _ enters ih =>
      obtain ⟨n, walks⟩ := ih
      exact ⟨n + 1, walks.snoc enters⟩

theorem walks_distance (reached : ReflTransGen g.Enters start p) : g.Walks start (g.distance start p) p :=
  Nat.sInf_mem (exists_walks_iff.mpr reached)

theorem distance_le {n : Nat} (walks : g.Walks start n p) : g.distance start p ≤ n := Nat.sInf_le walks

theorem distance_le_succ (reached : ReflTransGen g.Enters start p) (enters : g.Enters p t) :
    g.distance start t ≤ g.distance start p + 1 :=
  distance_le ((walks_distance reached).snoc enters)

/-- A shortest way to a node goes over a node that is one edge nearer. -/
theorem exists_nearer (reached : ReflTransGen g.Enters start t) (other : t ≠ start) :
    ∃ p, ReflTransGen g.Enters start p ∧ g.Enters p t ∧ g.distance start t = g.distance start p + 1 := by
  have walks := walks_distance reached
  generalize hn : g.distance start t = n at walks
  cases walks with
  | nil => exact absurd rfl other
  | @snoc m p _ walks enters =>
    have hr : ReflTransGen g.Enters start p := exists_walks_iff.mp ⟨m, walks⟩
    refine ⟨p, hr, enters, ?_⟩
    have := distance_le walks
    have := distance_le_succ hr enters
    omega

/-! ## What a search finds -/

theorem enterable_of_reached (hs : start ∈ g.index.enterable) (reached : ReflTransGen g.Enters start p) :
    p ∈ g.index.enterable := by
  cases reached with
  | refl => exact hs
  | tail _ enters => exact (enters_iff.mp enters).2

theorem mem_reach_iff_enters (hs : start ∈ g.index.enterable) :
    p ∈ g.index.reach order start ↔ ReflTransGen g.Enters start p := by
  constructor
  · intro hp
    refine (GraphIndex.reach_ind hs .refl (fun q hq t ht he => ?_) p hp).2
    exact ReflTransGen.tail hq (enters_iff.mpr ⟨ht, he⟩)
  · intro reached
    induction reached with
    | refl =>
      obtain ⟨rest, first⟩ := GraphIndex.reach_eq_cons order hs
      rw [first]
      exact List.mem_cons_self
    | tail _ enters ih =>
      obtain ⟨ht, he⟩ := enters_iff.mp enters
      exact GraphIndex.reach_closed hs ih ht he

/-- A search begins by levels: the start alone is queued, and all else is fresh. -/
theorem layered_start (hs : start ∈ g.index.enterable) :
    Reach.Layered g.index.targets (ReflTransGen g.Enters start) (g.distance start) [start]
      (g.index.enterable.erase start) := by
  have hnodup : ([start] ++ g.index.enterable.erase start).Nodup :=
    List.nodup_cons.mpr ⟨(GraphIndex.nodup_enterable _).not_mem_erase, (GraphIndex.nodup_enterable _).erase start⟩
  have start_distance : g.distance start start = 0 := by
    have : g.distance start start ≤ 0 := distance_le .nil
    omega
  constructor
  case nodup => exact hnodup
  case queued =>
    intro q hq
    cases List.mem_singleton.mp hq
    exact .refl
  case sorted => exact List.pairwise_singleton _ _
  case span =>
    intro a ha b hb
    cases List.mem_singleton.mp ha
    cases List.mem_singleton.mp hb
    omega
  case ahead =>
    intro q hq x _ _
    cases List.mem_singleton.mp hq
    omega
  case near =>
    intro q hq x hx hf
    have enters : g.Enters q x := enters_iff.mpr ⟨hx, List.mem_of_mem_erase hf⟩
    exact ⟨hq.tail enters, distance_le_succ hq enters⟩
  case led =>
    intro x hx reached
    have other : x ≠ start := by
      intro same
      exact (List.nodup_cons.mp hnodup).1 (same ▸ hx)
    obtain ⟨q, hq, enters, nearer⟩ := exists_nearer reached other
    refine ⟨q, ?_, hq, (enters_iff.mp enters).1, nearer⟩
    by_cases same : q = start
    · exact Or.inl (List.mem_singleton.mpr same)
    · exact Or.inr ((List.mem_erase_of_ne same).mpr (enterable_of_reached hs hq))

structure Discovers (g : Graph) (start : Nat) (found : List Nat) : Prop where
  first : found.head? = some start
  nodup : found.Nodup
  exact : ∀ p, p ∈ found ↔ ReflTransGen g.Enters start p

theorem discovers_of_enterable (order : SearchOrder) (hs : start ∈ g.index.enterable) :
    g.Discovers start (g.index.reach order start) := by
  constructor
  case first =>
    obtain ⟨rest, h⟩ := GraphIndex.reach_eq_cons order hs
    rw [h]
    rfl
  case nodup => exact GraphIndex.reach_nodup order start
  case exact => exact fun p => mem_reach_iff_enters hs

/-- From the first start of a graph, both searches find what edges lead to without entering a tool. One
    finds it by the distance from the start, the other in the order of the recursion that follows the
    edges of each node in turn. -/
theorem reach_discovers {g : Graph} {start : Nat} (hs : g.firstOfKind? .start = some start) :
    (∀ order, g.Discovers start (g.index.reach order start)) ∧
    (g.index.reach .breadthFirst start).Pairwise (fun p q => g.distance start p ≤ g.distance start q) ∧
    g.index.reach .depthFirst start = (Reach.preorder g.successors g.index.enterable [start]).found := by
  have enterable := start_mem_enterable hs
  refine ⟨fun order => discovers_of_enterable order enterable, (layered_start enterable).breadthFirst_sorted, ?_⟩
  have successors : g.successors = g.index.targets := funext fun p => (g.targets_eq_successors p).symm
  rw [successors]
  exact Reach.depthFirst_eq_preorder _ _ [start]

/-- Two edges to one agent, whose tool is not entered, a diamond and a circle back into it. -/
def winding : Graph :=
  ({ nodes := [.start "1", .splitter "2", .promptLlm "3" none, .promptAgent "4" "Answer." none,
      .indexTool "5" "Docs" "pipe-1", .collector "6", .stop "7"] } : Graph)
    |>.join "e1" "1" "2" |>.join "e2" "2" "3" |>.join "e3" "2" "4" |>.join "e4" "2" "4" |>.join "e5" "4" "5"
    |>.join "e6" "5" "7" |>.join "e7" "3" "6" |>.join "e8" "4" "6" |>.join "e9" "6" "2" |>.join "e10" "6" "7"

theorem winding_discovers :
    winding.firstOfKind? .start = some 0 ∧
    winding.index.reach .breadthFirst 0 = [0, 1, 2, 3, 5, 6] ∧
    winding.index.reach .depthFirst 0 = [0, 1, 2, 5, 6, 3] ∧
    (∀ order, winding.Discovers 0 (winding.index.reach order 0)) ∧
    [0, 1, 2, 3, 5, 6].Pairwise (fun p q => winding.distance 0 p ≤ winding.distance 0 q) ∧
    (Reach.preorder winding.successors winding.index.enterable [0]).found = [0, 1, 2, 5, 6, 3] := by
  have hs : winding.firstOfKind? .start = some 0 := by decide
  have broad : winding.index.reach .breadthFirst 0 = [0, 1, 2, 3, 5, 6] := by decide +kernel
  have deep : winding.index.reach .depthFirst 0 = [0, 1, 2, 5, 6, 3] := by
    have enterable : winding.index.enterable = [0, 1, 2, 3, 5, 6] := by decide +kernel
    have targets : [0, 1, 2, 3, 5, 6].map winding.index.targets = [[1], [2, 3, 3], [5], [4, 5], [1, 6], []] := by
      decide +kernel
    simp only [List.map_cons, List.map_nil, List.cons.injEq] at targets
    simp [GraphIndex.reach, enterable, Reach.depthFirst, targets]
  obtain ⟨discovers, sorted, preorder⟩ := reach_discovers hs
  rw [broad] at sorted
  rw [deep] at preorder
  exact ⟨hs, broad, deep, discovers, sorted, preorder.symm⟩

end Graph
end EventFlow
