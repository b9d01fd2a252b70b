/-
  EventFlow.Proofs.Compilation.Live — the part of a graph that compilation sees.

  A node is live if edges lead to it from the first start over nodes that are no tools, and an edge is live
  if it leaves a live node and its target is known. Two graphs have the same live part if their live edges
  are the same, in the same order, and the nodes at both ends are. Positions, other nodes and other edges do
  not count.

  Proved:
  - `mem_reach_iff_live`: live nodes are those that a search finds, so being live can be decided.
  - `SameLive.leading` / `SameLive.live`: the two graphs have one start and the same live nodes.
  - `sameLive_of_perm` / `sameLive_restrict`: the order of the nodes is not part of it, nor is what a search
    does not see.
-/

import EventFlow.Proofs.Compilation.Origins

namespace EventFlow

open Relation (ReflTransGen)

namespace Graph

structure Distinct (g : Graph) : Prop where
  nodes : (g.nodes.map (·.id)).Nodup
  edges : (g.edges.map (·.id)).Nodup

/-- Edges lead from the first start to the node, over nodes that are no tools. -/
def Live (g : Graph) (id : String) : Prop :=
  ∃ start, g.leading? .start = some start ∧ ReflTransGen g.Joins start.id id

variable {g g' : Graph} {order : SearchOrder} {start : Nat}

/-! ## Ids that are distinct -/

section

variable (distinct : (g.nodes.map (·.id)).Nodup)

include distinct

theorem node?_eq_some_iff {id : String} {n : Node} : g.node? id = some n ↔ n ∈ g.nodes ∧ n.id = id := by
  constructor
  · intro found
    exact ⟨List.mem_of_find?_eq_some found, by simpa using List.find?_some found⟩
  · rintro ⟨hn, rfl⟩
    exact find?_eq_of_nodup distinct hn

/-- No node hides another one, so the first start is the one that leads. -/
theorem leading?_start : g.leading? .start = g.startNode? := by
  have leads : ∀ n ∈ g.nodes, (n.kind = .start && g.node? n.id = some n : Bool) = (n.kind = .start : Bool) := by
    intro n hn
    rw [(node?_eq_some_iff distinct).mpr ⟨hn, rfl⟩, decide_eq_true rfl, Bool.and_true]
  rw [leading?, startNode?, ← List.head?_filter, ← List.head?_filter, List.filter_congr leads]

end

/-! ## Live nodes -/

theorem leading?_eq_some_iff {kind : NodeKind} {n : Node} :
    g.leading? kind = some n ↔ ∃ p, g.firstOfKind? kind = some p ∧ g.Leads p n := by
  rw [leading?_eq_bind]
  constructor
  · intro found
    obtain ⟨p, first, node⟩ := Option.bind_eq_some_iff.mp found
    obtain ⟨m, leads, -, -⟩ := firstOfKind?_eq_some first
    rw [leads.1] at node
    exact ⟨p, first, Option.some.inj node ▸ leads⟩
  · rintro ⟨p, first, leads⟩
    rw [first, Option.bind_some, leads.1]

theorem exists_link {e : Edge} (he : e ∈ g.edges) {a b : Nat} (source : g.position? e.source = some a)
    (target : g.position? e.target = some b) : ∃ l ∈ g.links, l.edge = e ∧ l.source = a ∧ l.target = b := by
  obtain ⟨i, at_i⟩ := List.mem_iff_getElem?.mp he
  exact ⟨⟨i, e, a, b⟩, mem_links_iff.mpr ⟨at_i, source, target⟩, rfl, rfl, rfl⟩

theorem exists_leads {id : String} {n : Node} (h : g.node? id = some n) : n.id = id ∧ ∃ p, g.Leads p n := by
  obtain ⟨p, at_p⟩ := Option.isSome_iff_exists.mp (isSome_position?.trans (by rw [h]; rfl))
  obtain ⟨m, leads, same, found⟩ := leads_of_position? at_p
  obtain rfl : m = n := Option.some.inj (found.symm.trans h)
  exact ⟨same, p, leads⟩

/-- A search finds every node that the start's edges lead to. -/
theorem mem_reach_of_joined (hs : g.firstOfKind? .start = some start) {n : Node} (hn : g.Leads start n) {id : String}
    (joined : ReflTransGen g.Joins n.id id) : ∃ p m, g.Leads p m ∧ m.id = id ∧ p ∈ g.index.reach order start := by
  induction joined with
  | refl =>
    obtain ⟨rest, first⟩ := GraphIndex.reach_eq_cons order (start_mem_enterable hs)
    exact ⟨start, n, hn, rfl, first ▸ List.mem_cons_self⟩
  | tail _ joins ih =>
    obtain ⟨p, m, hm, rfl, hp⟩ := ih
    obtain ⟨e, he, source, rfl, t, known, tool⟩ := joins
    obtain ⟨same, q, ht⟩ := exists_leads known
    obtain ⟨l, hl, -, leaves, enters⟩ := exists_link he (source ▸ hm.2) (same ▸ ht.2)
    have target : q ∈ g.index.targets p :=
      GraphIndex.mem_targets_iff.mpr ⟨l, GraphIndex.mem_outgoing_iff.mpr ⟨hl, leaves⟩, enters⟩
    exact ⟨q, t, ht, same, GraphIndex.reach_closed (start_mem_enterable hs) hp target (mem_enterable ht.1 tool)⟩

/-- Live nodes are those that a search finds. -/
theorem mem_reach_iff_live (hs : g.firstOfKind? .start = some start) {p : Nat} {m : Node} (hm : g.Leads p m) :
    p ∈ g.index.reach order start ↔ g.Live m.id := by
  obtain ⟨n, hn, -, -⟩ := firstOfKind?_eq_some hs
  have leading : g.leading? .start = some n := leading?_eq_some_iff.mpr ⟨start, hs, hn⟩
  constructor
  · intro hp
    obtain ⟨m', hm', joined⟩ := reach_joined hs hn hp
    obtain rfl : m = m' := Option.some.inj (hm.1.symm.trans hm'.1)
    exact ⟨n, leading, joined⟩
  · rintro ⟨n', leading', joined⟩
    obtain rfl : n = n' := Option.some.inj (leading.symm.trans leading')
    obtain ⟨q, k, hk, same, hq⟩ := mem_reach_of_joined hs hn joined
    exact hk.eq_of_id_eq hm same ▸ hq

def reachedIds (g : Graph) : List String :=
  match g.firstOfKind? .start with
  | some start => ((g.index.reach .breadthFirst start).filterMap g.index.node?).map (·.id)
  | none => []

theorem mem_reachedIds_iff {id : String} : id ∈ g.reachedIds ↔ g.Live id := by
  unfold reachedIds
  split
  · next start hs =>
    simp only [List.mem_map, List.mem_filterMap]
    constructor
    · rintro ⟨m, ⟨p, hp, at_p⟩, rfl⟩
      obtain ⟨m', hm', -⟩ := reach_leads hs hp
      obtain rfl : m' = m := Option.some.inj (hm'.1.symm.trans at_p)
      exact (mem_reach_iff_live hs hm').mp hp
    · rintro ⟨n, leading, joined⟩
      obtain ⟨start', hs', hn⟩ := leading?_eq_some_iff.mp leading
      obtain rfl : start = start' := Option.some.inj (hs.symm.trans hs')
      obtain ⟨p, m, hm, same, hp⟩ := mem_reach_of_joined hs hn joined
      exact ⟨m, ⟨p, hp, hm.1⟩, same⟩
  · next none =>
    refine ⟨nofun, ?_⟩
    rintro ⟨n, leading, -⟩
    obtain ⟨start, hs, -⟩ := leading?_eq_some_iff.mp leading
    rw [none] at hs
    cases hs

instance (g : Graph) : DecidablePred g.Live := fun _ => decidable_of_iff _ mem_reachedIds_iff

theorem Live.node? {id : String} (live : g.Live id) : ∃ n, g.node? id = some n ∧ n.kind ≠ .agentTool := by
  obtain ⟨start, leading, joined⟩ := live
  cases joined with
  | refl =>
    obtain ⟨p, first, leads⟩ := leading?_eq_some_iff.mp leading
    obtain ⟨n, hn, kind, -⟩ := firstOfKind?_eq_some first
    obtain rfl : n = start := Option.some.inj (hn.1.symm.trans leads.1)
    exact ⟨n, leads.node?, by rw [kind]; decide⟩
  | tail _ joins =>
    obtain ⟨-, -, -, -, known⟩ := joins
    exact known

/-! ## Live edges -/

/-- The edges that leave live nodes and whose targets are known, in the order of the graph. -/
def liveEdges (g : Graph) : List Edge := g.edges.filter fun e => g.Live e.source ∧ (g.node? e.target).isSome

theorem mem_liveEdges_iff {e : Edge} : e ∈ g.liveEdges ↔ e ∈ g.edges ∧ g.Live e.source ∧ (g.node? e.target).isSome := by
  rw [liveEdges, List.mem_filter, decide_eq_true_eq]

theorem mem_liveEdges {e : Edge} (he : e ∈ g.edges) (live : g.Live e.source) {n : Node}
    (known : g.node? e.target = some n) : e ∈ g.liveEdges :=
  mem_liveEdges_iff.mpr ⟨he, live, by rw [known]; rfl⟩

theorem Live.target {e : Edge} (he : e ∈ g.liveEdges) {n : Node} (known : g.node? e.target = some n)
    (tool : n.kind ≠ .agentTool) : g.Live e.target := by
  obtain ⟨he, ⟨start, leading, joined⟩, -⟩ := mem_liveEdges_iff.mp he
  exact ⟨start, leading, joined.tail ⟨e, he, rfl, rfl, n, known, tool⟩⟩

/-! ## Graphs with the same live part -/

/-- The first starts have one id, the live edges are the same, and so are live nodes and the targets of live
    edges. -/
structure SameLive (g g' : Graph) : Prop where
  start : g.startNode?.map (·.id) = g'.startNode?.map (·.id)
  edges : g.liveEdges = g'.liveEdges
  nodes : ∀ id, g.Live id → g.node? id = g'.node? id
  targets : ∀ e ∈ g.liveEdges, g.node? e.target = g'.node? e.target

namespace SameLive

variable (same : g.SameLive g') (distinct : (g.nodes.map (·.id)).Nodup) (distinct' : (g'.nodes.map (·.id)).Nodup)

include same distinct distinct'

theorem leading : g.leading? .start = g'.leading? .start := by
  have ids := same.start
  rw [← leading?_start distinct, ← leading?_start distinct'] at ids
  cases first : g.leading? .start with
  | none =>
    rw [first, Option.map_none, eq_comm, Option.map_eq_none_iff] at ids
    exact ids.symm
  | some s =>
    rw [first, Option.map_some, eq_comm, Option.map_eq_some_iff] at ids
    obtain ⟨s', first', id⟩ := ids
    obtain ⟨p, -, hs⟩ := leading?_eq_some_iff.mp first
    obtain ⟨p', -, hs'⟩ := leading?_eq_some_iff.mp first'
    have node := same.nodes s.id ⟨s, first, .refl⟩
    rw [hs.node?, ← id, hs'.node?] at node
    rw [first', node]

theorem live {id : String} (h : g.Live id) : g'.Live id := by
  obtain ⟨start, leading, joined⟩ := h
  refine ⟨start, same.leading distinct distinct' ▸ leading, ?_⟩
  induction joined with
  | refl => exact .refl
  | tail joined joins ih =>
    obtain ⟨e, he, rfl, rfl, n, known, tool⟩ := joins
    have live : e ∈ g.liveEdges := mem_liveEdges he ⟨start, leading, joined⟩ known
    refine ih.tail ⟨e, ?_, rfl, rfl, n, same.targets e live ▸ known, tool⟩
    exact (mem_liveEdges_iff.mp (same.edges ▸ live)).1

end SameLive

/-! ## The order of the nodes, and what a search does not see -/

/-- Graphs that agree in their edges and in what every id means have the same live part. -/
theorem sameLive_of_node? (edges : g.edges = g'.edges) (nodes : ∀ id, g.node? id = g'.node? id)
    (leading : g.leading? .start = g'.leading? .start) (start : g.startNode? = g'.startNode?) : g.SameLive g' := by
  have joins : g.Joins = g'.Joins := by
    funext a b
    simp only [Joins, edges, nodes]
  have live (id : String) : g.Live id ↔ g'.Live id := by rw [Live, Live, joins, leading]
  have liveEdges : g.liveEdges = g'.liveEdges := by
    rw [Graph.liveEdges, Graph.liveEdges, edges]
    exact List.filter_congr fun e _ => by simp only [live, nodes]
  exact ⟨by rw [start], liveEdges, fun id _ => nodes id, fun e _ => nodes e.target⟩

theorem sameLive_of_perm (distinct : (g.nodes.map (·.id)).Nodup) (nodes : g'.nodes.Perm g.nodes)
    (edges : g'.edges = g.edges) (start : g'.startNode? = g.startNode?) : g'.SameLive g := by
  have distinct' : (g'.nodes.map (·.id)).Nodup := (nodes.map _).nodup_iff.mpr distinct
  have known (id : String) : g'.node? id = g.node? id :=
    Option.ext fun n => by rw [node?_eq_some_iff distinct, node?_eq_some_iff distinct', nodes.mem_iff]
  exact sameLive_of_node? edges known (by rw [leading?_start distinct, leading?_start distinct', start]) start

/-- The nodes and the edges that are kept. -/
def restrict (g : Graph) (keepNode : Node → Bool) (keepEdge : Edge → Bool) : Graph :=
  ⟨g.nodes.filter keepNode, g.edges.filter keepEdge⟩

structure Spares (g : Graph) (keepNode : Node → Bool) (keepEdge : Edge → Bool) : Prop where
  nodes : ∀ n ∈ g.nodes, g.Live n.id → keepNode n = true
  targets : ∀ n ∈ g.nodes, (∃ e ∈ g.liveEdges, e.target = n.id) → keepNode n = true
  edges : ∀ e ∈ g.liveEdges, keepEdge e = true

theorem find?_filter_of_first {α : Type} {keep first : α → Bool} {l : List α}
    (kept : ∀ a, l.find? first = some a → keep a = true) : (l.filter keep).find? first = l.find? first := by
  induction l with
  | nil => rfl
  | cons a l ih =>
    cases test : first a with
    | true =>
      have found : (a :: l).find? first = some a := List.find?_cons_of_pos test
      rw [List.filter_cons_of_pos (kept a found), List.find?_cons_of_pos test, List.find?_cons_of_pos test]
    | false =>
      have skip : ¬ first a = true := Bool.eq_false_iff.mp test
      rw [List.find?_cons_of_neg skip] at kept ⊢
      rw [← ih kept, List.filter_cons]
      split
      · rw [List.find?_cons_of_neg skip]
      · rfl

section

variable {keepNode : Node → Bool} {keepEdge : Edge → Bool} (distinct : (g.nodes.map (·.id)).Nodup)

include distinct

theorem restrict_distinct : ((g.restrict keepNode keepEdge).nodes.map (·.id)).Nodup :=
  (List.filter_sublist.map _).nodup distinct

theorem node?_restrict {id : String} {n : Node} :
    (g.restrict keepNode keepEdge).node? id = some n ↔ g.node? id = some n ∧ keepNode n = true := by
  rw [node?_eq_some_iff distinct, node?_eq_some_iff (restrict_distinct distinct), restrict, List.mem_filter]
  exact and_right_comm

variable (spares : g.Spares keepNode keepEdge)

include spares

theorem startNode?_restrict : (g.restrict keepNode keepEdge).startNode? = g.startNode? := by
  refine find?_filter_of_first fun s first => ?_
  have leading : g.leading? .start = some s := (leading?_start distinct).trans first
  exact spares.nodes s (List.mem_of_find?_eq_some first) ⟨s, leading, .refl⟩

theorem live_restrict {id : String} : (g.restrict keepNode keepEdge).Live id ↔ g.Live id := by
  have leading : (g.restrict keepNode keepEdge).leading? .start = g.leading? .start := by
    rw [leading?_start distinct, leading?_start (restrict_distinct distinct), startNode?_restrict distinct spares]
  rw [Live, Live, leading]
  refine exists_congr fun start => and_congr_right fun first => ⟨fun joined => ?_, fun joined => ?_⟩
  · refine ReflTransGen.mono ?_ _ _ joined
    rintro a b ⟨e, he, source, target, n, known, tool⟩
    exact ⟨e, (List.mem_filter.mp he).1, source, target, n, ((node?_restrict distinct).mp known).1, tool⟩
  · induction joined with
    | refl => exact .refl
    | tail joined joins ih =>
      obtain ⟨e, he, rfl, rfl, n, known, tool⟩ := joins
      have live : e ∈ g.liveEdges := mem_liveEdges he ⟨start, first, joined⟩ known
      obtain ⟨hn, id⟩ := (node?_eq_some_iff distinct).mp known
      have kept : (g.restrict keepNode keepEdge).node? e.target = some n :=
        (node?_restrict distinct).mpr ⟨known, spares.targets n hn ⟨e, live, id.symm⟩⟩
      exact ih.tail ⟨e, List.mem_filter.mpr ⟨he, spares.edges e live⟩, rfl, rfl, n, kept, tool⟩

theorem sameLive_restrict : (g.restrict keepNode keepEdge).SameLive g := by
  have target {e : Edge} (he : e ∈ g.liveEdges) : (g.restrict keepNode keepEdge).node? e.target = g.node? e.target := by
    obtain ⟨n, known⟩ := Option.isSome_iff_exists.mp (mem_liveEdges_iff.mp he).2.2
    obtain ⟨hn, id⟩ := (node?_eq_some_iff distinct).mp known
    rw [known]
    exact (node?_restrict distinct).mpr ⟨known, spares.targets n hn ⟨e, he, id.symm⟩⟩
  have edges : (g.restrict keepNode keepEdge).liveEdges = g.liveEdges := by
    rw [liveEdges, liveEdges, restrict, List.filter_filter, ← restrict]
    refine List.filter_congr fun e he => ?_
    rw [Bool.eq_iff_iff, Bool.and_eq_true, decide_eq_true_eq, decide_eq_true_eq, live_restrict distinct spares]
    constructor
    · rintro ⟨⟨live, known⟩, -⟩
      obtain ⟨n, known⟩ := Option.isSome_iff_exists.mp known
      exact ⟨live, Option.isSome_iff_exists.mpr ⟨n, ((node?_restrict distinct).mp known).1⟩⟩
    · intro live
      have member : e ∈ g.liveEdges := mem_liveEdges_iff.mpr ⟨he, live⟩
      exact ⟨⟨live.1, target member ▸ live.2⟩, spares.edges e member⟩
  refine ⟨by rw [startNode?_restrict distinct spares], edges, fun id live => ?_, fun e he => target (edges ▸ he)⟩
  rw [live_restrict distinct spares] at live
  obtain ⟨n, known, -⟩ := live.node?
  obtain ⟨hn, rfl⟩ := (node?_eq_some_iff distinct).mp known
  rw [known]
  exact (node?_restrict distinct).mpr ⟨known, spares.nodes n hn live⟩

end

end Graph
end EventFlow
