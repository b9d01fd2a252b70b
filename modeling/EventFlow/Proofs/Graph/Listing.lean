/-
  EventFlow.Proofs.Graph.Listing — the lists of edges that an index keeps for each node.

  An edge names its ends by ids, and an id may stand at no node or at several: it means the first. So an
  edge belongs to one list of edges that leave a node and to one list of edges that enter one, or to none if
  an end is not known, and a node that an earlier one hides has no edges at all. A loop stands in both lists
  of its node.

  Proved:
  - `links_grown`: what one more edge adds.
  - `positions_filter_links`: which edges any choice of links is made of, by induction on the edges from the
    last one.
  - `count_listed` / `listed_ordered`: an edge in the lists of one side.
  - `index_faithful`: both lists of all nodes (`GraphIndex.Faithful`).
-/

import EventFlow.Graph.Sample
import EventFlow.Proofs.Graph.Adjacency
import Mathlib.Data.List.Induction
import Mathlib.Data.List.Nodup

namespace EventFlow

namespace Graph

variable {g : Graph}

def Knows (g : Graph) (id : String) : Prop := ∃ n ∈ g.nodes, n.id = id

def FirstAt (g : Graph) (id : String) (p : Nat) : Prop :=
  (∃ n, g.nodes[p]? = some n ∧ n.id = id) ∧ ∀ j < p, ∀ n, g.nodes[j]? = some n → n.id ≠ id

theorem firstAt_iff {id : String} {p : Nat} : g.FirstAt id p ↔ g.position? id = some p := position?_eq_some_iff.symm

theorem knows_iff {id : String} : g.Knows id ↔ ∃ p, g.position? id = some p := by
  rw [← Option.isSome_iff_exists, isSome_position?, node?, List.find?_isSome]
  simp [Knows]

/-! ## One edge more -/

def grown (g : Graph) (e : Edge) : Graph := { g with edges := g.edges ++ [e] }

/-- The edge is a link if its ends are known; all others stay as they are. -/
theorem links_grown (e : Edge) : (g.grown e).links = g.links ++ (g.link? e g.edges.length).toList := by
  rw [links, grown, List.zipIdx_append, List.filterMap_append, Nat.zero_add]
  rfl

theorem position_of_link? {e : Edge} {i : Nat} {l : Link} (h : g.link? e i = some l) : l.position = i :=
  (link?_eq_some_iff.mp h).1

/-! ## All edges -/

def linkAt? (g : Graph) (i : Nat) : Option Link := g.edges[i]?.bind (g.link? · i)

theorem linkAt?_grown (e : Edge) {i : Nat} (old : i < g.edges.length) : (g.grown e).linkAt? i = g.linkAt? i := by
  show ((g.edges ++ [e])[i]?.bind (g.link? · i)) = _
  rw [List.getElem?_append_left old, linkAt?]

theorem linkAt?_grown_last (e : Edge) : (g.grown e).linkAt? g.edges.length = g.link? e g.edges.length := by
  show ((g.edges ++ [e])[g.edges.length]?.bind (g.link? · g.edges.length)) = _
  rw [List.getElem?_concat_length, Option.bind_some]

/-- Links are listed in the order of the edges, each once. -/
theorem positions_filter_links (pick : Link → Bool) :
    (g.links.filter pick).map (·.position) = (List.range g.edges.length).filter fun i => (g.linkAt? i).any pick := by
  obtain ⟨nodes, edges⟩ := g
  induction edges using List.reverseRecOn with
  | nil => rfl
  | append_singleton edges e ih =>
    let g : Graph := ⟨nodes, edges⟩
    have last : ((g.link? e edges.length).toList.filter pick).map (·.position) =
        [edges.length].filter fun i => ((g.grown e).linkAt? i).any pick := by
      rw [List.filter_singleton, linkAt?_grown_last]
      cases here : g.link? e edges.length with
      | none => rfl
      | some l => cases picked : pick l <;> simp [picked, position_of_link? here]
    calc ((g.grown e).links.filter pick).map (·.position)
      _ = (g.links.filter pick).map (·.position) ++ ((g.link? e edges.length).toList.filter pick).map (·.position) := by
        rw [links_grown, List.filter_append, List.map_append]
      _ = ((List.range edges.length).filter fun i => (g.linkAt? i).any pick) ++
          [edges.length].filter fun i => ((g.grown e).linkAt? i).any pick := congrArg₂ _ ih last
      _ = ((List.range edges.length).filter fun i => ((g.grown e).linkAt? i).any pick) ++
          [edges.length].filter fun i => ((g.grown e).linkAt? i).any pick := by
        refine congrArg (· ++ _) (List.filter_congr fun i hi => ?_)
        rw [linkAt?_grown e (List.mem_range.mp hi)]
      _ = (List.range (g.grown e).edges.length).filter fun i => ((g.grown e).linkAt? i).any pick := by
        rw [grown, List.length_append, List.length_singleton, List.range_succ, List.filter_append]

theorem linkAt?_eq_some_iff {i : Nat} {l : Link} : g.linkAt? i = some l ↔ l.position = i ∧ l ∈ g.links := by
  rw [linkAt?, Option.bind_eq_some_iff, mem_links_iff]
  constructor
  · rintro ⟨e, he, link⟩
    obtain ⟨rfl, rfl, source, target⟩ := link?_eq_some_iff.mp link
    exact ⟨rfl, he, source, target⟩
  · rintro ⟨rfl, he, source, target⟩
    exact ⟨l.edge, he, link?_eq_some_iff.mpr ⟨rfl, rfl, source, target⟩⟩

/-- An edge is a link just if both its ends are known. -/
theorem linkAt?_isSome_iff {i : Nat} :
    (∃ l, g.linkAt? i = some l) ↔ ∃ e, g.edges[i]? = some e ∧ g.Knows e.source ∧ g.Knows e.target := by
  simp only [linkAt?_eq_some_iff, mem_links_iff, knows_iff]
  constructor
  · rintro ⟨l, rfl, he, source, target⟩
    exact ⟨l.edge, he, ⟨_, source⟩, ⟨_, target⟩⟩
  · rintro ⟨e, he, ⟨s, source⟩, ⟨t, target⟩⟩
    exact ⟨⟨i, e, s, t⟩, rfl, he, source, target⟩

end Graph

/-! ## The lists of the nodes -/

namespace GraphIndex

/-- The positions of the edges that leave a node. -/
def leaving (ix : GraphIndex) (p : Nat) : List Nat := (ix.outgoing p).map (·.position)

/-- The positions of the edges that enter a node. -/
def entering (ix : GraphIndex) (p : Nat) : List Nat := (ix.incoming p).map (·.position)

structure Faithful (ix : GraphIndex) (g : Graph) : Prop where
  /-- An edge whose ends are known stands once in the list of each of them, and in no other list. -/
  known : ∀ i e, g.edges[i]? = some e → g.Knows e.source → g.Knows e.target →
    ∃ s t, g.FirstAt e.source s ∧ g.FirstAt e.target t ∧
      ∀ p, (ix.leaving p).count i = (if p = s then 1 else 0) ∧ (ix.entering p).count i = if p = t then 1 else 0
  /-- No other edge stands in a list. -/
  others : ∀ p i, i ∈ ix.leaving p ∨ i ∈ ix.entering p → ∃ e, g.edges[i]? = some e ∧ g.Knows e.source ∧ g.Knows e.target
  ordered : ∀ p, (ix.leaving p).Pairwise (· < ·) ∧ (ix.entering p).Pairwise (· < ·)
  hidden : ∀ p n, g.nodes[p]? = some n → ¬ g.FirstAt n.id p → ix.outgoing p = [] ∧ ix.incoming p = []
  /-- An edge that leaves a node is found at the node again, and its target at the first node with its id. -/
  outgoing : ∀ p, ∀ l ∈ ix.outgoing p, g.edges[l.position]? = some l.edge ∧ l.source = p ∧
    g.position? l.edge.source = some p ∧ g.position? l.edge.target = some l.target ∧ g.FirstAt l.edge.target l.target
  incoming : ∀ p, ∀ l ∈ ix.incoming p, g.edges[l.position]? = some l.edge ∧ l.target = p ∧
    g.position? l.edge.target = some p ∧ g.position? l.edge.source = some l.source ∧ g.FirstAt l.edge.source l.source

end GraphIndex

namespace Graph

variable {g : Graph} {side : Link → Nat} {i p : Nat}

def listed (g : Graph) (side : Link → Nat) (p : Nat) : List Nat := (g.links.filter (side · = p)).map (·.position)

theorem listed_ordered : (g.listed side p).Pairwise (· < ·) := by
  rw [listed, positions_filter_links]
  exact List.pairwise_lt_range.filter _

theorem mem_listed_iff : i ∈ g.listed side p ↔ ∃ l, g.linkAt? i = some l ∧ side l = p := by
  simp only [listed, List.mem_map, List.mem_filter, decide_eq_true_eq, linkAt?_eq_some_iff]
  exact exists_congr fun l => by rw [and_comm, and_assoc]

theorem count_listed {l : Link} (h : g.linkAt? i = some l) : (g.listed side p).count i = if p = side l then 1 else 0 := by
  have here : i ∈ g.listed side p ↔ p = side l := by
    rw [mem_listed_iff]
    simp [h, eq_comm]
  have nodup : (g.listed side p).Nodup := listed_ordered.imp Nat.ne_of_lt
  rw [nodup.count]
  exact if_congr here rfl rfl

/-- The index of every graph holds its edges, whatever ids they are between. -/
theorem index_faithful (g : Graph) : g.index.Faithful g where
  known i e he source target := by
    obtain ⟨l, hl⟩ := linkAt?_isSome_iff.mpr ⟨e, he, source, target⟩
    obtain ⟨rfl, mem⟩ := linkAt?_eq_some_iff.mp hl
    obtain ⟨edge, leaves, enters⟩ := mem_links_iff.mp mem
    obtain rfl : l.edge = e := Option.some.inj (edge.symm.trans he)
    exact ⟨l.source, l.target, firstAt_iff.mpr leaves, firstAt_iff.mpr enters, fun p => ⟨count_listed hl, count_listed hl⟩⟩
  others p i h := by
    refine linkAt?_isSome_iff.mp ?_
    rcases h with leaves | enters
    · obtain ⟨l, hl, -⟩ := mem_listed_iff.mp leaves
      exact ⟨l, hl⟩
    · obtain ⟨l, hl, -⟩ := mem_listed_iff.mp enters
      exact ⟨l, hl⟩
  ordered p := ⟨listed_ordered, listed_ordered⟩
  hidden p n hn later := by
    have unnamed {id : String} (h : g.position? id = some p) : False :=
      later (firstAt_iff.mpr (position?_id h hn ▸ h))
    refine ⟨List.filter_eq_nil_iff.mpr fun l hl here => ?_, List.filter_eq_nil_iff.mpr fun l hl here => ?_⟩
    · obtain ⟨-, source, -⟩ := mem_links_iff.mp hl
      exact unnamed (of_decide_eq_true here ▸ source)
    · obtain ⟨-, -, target⟩ := mem_links_iff.mp hl
      exact unnamed (of_decide_eq_true here ▸ target)
  outgoing p l h := by
    obtain ⟨hl, rfl⟩ := GraphIndex.mem_outgoing_iff.mp h
    obtain ⟨edge, source, target⟩ := mem_links_iff.mp hl
    exact ⟨edge, rfl, source, target, firstAt_iff.mpr target⟩
  incoming p l h := by
    obtain ⟨hl, rfl⟩ := GraphIndex.mem_incoming_iff.mp h
    obtain ⟨edge, source, target⟩ := mem_links_iff.mp hl
    exact ⟨edge, rfl, target, source, firstAt_iff.mpr source⟩

/-- A hidden node, a loop, an edge to nowhere, and edges by an id that two nodes have. -/
def tangled : Graph :=
  ({ nodes := [.userInput "1" "Ask:", .start "1", .start "s", .stop "2"] } : Graph)
    |>.join "e1" "1" "2" |>.join "e2" "s" "2" |>.join "e3" "2" "2" |>.join "e4" "1" "missing" |>.join "e5" "s" "1"

example : (List.range 4).map tangled.index.leaving = [[0], [], [1, 4], [2]] ∧
    (List.range 4).map tangled.index.entering = [[4], [], [], [0, 1, 2]] := by decide

end Graph
end EventFlow
