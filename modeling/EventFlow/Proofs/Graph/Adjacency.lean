/-
  EventFlow.Proofs.Graph.Adjacency — which edges are links, and between which nodes.

  - `position?_eq_some_iff` / `node?_eq_getElem?`: the position of an id is that of the first
    node that has it.
  - `mem_links_iff`: the links are the edges whose ends are known, with their positions.
  - `map_edge_filter_target` / `map_edge_filter_source`: the edges that enter or leave a node, in the order of
    the graph.
  - `link_eq_of_event_eq`: where edge ids are distinct, an event stands for one link.
  - `firstOfKind?_eq_some` / `firstOfKind?_eq_none`: the first node of a kind that no earlier node
    hides.
-/

import EventFlow.Graph.Index

namespace EventFlow

theorem Event.ofEdge_inj {a b : String} : Event.ofEdge a = Event.ofEdge b ↔ a = b := by
  simp [Event.ofEdge]

namespace Graph

variable {g : Graph}

theorem position?_eq_some_iff {id : String} {p : Nat} :
    g.position? id = some p ↔
      (∃ n, g.nodes[p]? = some n ∧ n.id = id) ∧ ∀ j < p, ∀ n, g.nodes[j]? = some n → n.id ≠ id := by
  simp only [position?, List.findIdx?_eq_some_iff_getElem, decide_eq_true_eq]
  constructor
  · rintro ⟨hp, hid, hmin⟩
    refine ⟨⟨g.nodes[p], List.getElem?_eq_getElem hp, hid⟩, fun j hj n hn => ?_⟩
    obtain ⟨hj', rfl⟩ := List.getElem?_eq_some_iff.mp hn
    exact hmin j hj
  · rintro ⟨⟨n, hn, hid⟩, hmin⟩
    obtain ⟨hp, rfl⟩ := List.getElem?_eq_some_iff.mp hn
    exact ⟨hp, hid, fun j hj => hmin j hj _ (List.getElem?_eq_getElem (by omega))⟩

/-- The node that an id means stands at the position of the id. -/
theorem node?_eq_getElem? {id : String} {p : Nat} (h : g.position? id = some p) :
    g.node? id = g.nodes[p]? := by
  obtain ⟨⟨n, hn, hid⟩, hmin⟩ := position?_eq_some_iff.mp h
  rw [hn]
  obtain ⟨hp, hget⟩ := List.getElem?_eq_some_iff.mp hn
  refine List.find?_eq_some_iff_getElem.mpr ⟨by simpa using hid, p, hp, hget, fun j hj => ?_⟩
  simpa using hmin j hj _ (List.getElem?_eq_getElem (by omega))

/-- A node that has a position is the one its id means. -/
theorem position?_id {id : String} {p : Nat} {n : Node} (h : g.position? id = some p)
    (hn : g.nodes[p]? = some n) : n.id = id := by
  obtain ⟨⟨m, hm, hid⟩, -⟩ := position?_eq_some_iff.mp h
  rw [hn] at hm
  cases hm
  exact hid

theorem isSome_position? {id : String} : (g.position? id).isSome = (g.node? id).isSome := by
  rw [position?, node?, List.findIdx?_isSome, Bool.eq_iff_iff, List.any_eq_true, List.find?_isSome]

theorem node?_isSome_of_position? {id : String} {p : Nat} (h : g.position? id = some p) :
    ∃ n, g.node? id = some n ∧ g.nodes[p]? = some n ∧ n.id = id := by
  obtain ⟨⟨n, hn, hid⟩, -⟩ := position?_eq_some_iff.mp h
  exact ⟨n, by rw [node?_eq_getElem? h, hn], hn, hid⟩

/-! ## Links -/

theorem link?_eq_some_iff {e : Edge} {i : Nat} {l : Link} :
    g.link? e i = some l ↔
      l.position = i ∧ l.edge = e ∧ g.position? e.source = some l.source ∧ g.position? e.target = some l.target := by
  obtain ⟨i', e', s, t⟩ := l
  simp only [link?, Option.bind_eq_bind, Option.pure_def, Option.bind_eq_some_iff, Option.some.injEq, Link.mk.injEq]
  constructor
  · rintro ⟨a, ha, b, hb, rfl, rfl, rfl, rfl⟩
    exact ⟨rfl, rfl, ha, hb⟩
  · rintro ⟨rfl, rfl, ha, hb⟩
    exact ⟨s, ha, t, hb, rfl, rfl, rfl, rfl⟩

theorem mem_links_iff {l : Link} :
    l ∈ g.links ↔ g.edges[l.position]? = some l.edge ∧ g.position? l.edge.source = some l.source ∧
      g.position? l.edge.target = some l.target := by
  simp only [links, List.mem_filterMap, Prod.exists, List.mk_mem_zipIdx_iff_getElem?, link?_eq_some_iff]
  constructor
  · rintro ⟨e, i, he, rfl, rfl, hs, ht⟩
    exact ⟨he, hs, ht⟩
  · rintro ⟨he, hs, ht⟩
    exact ⟨l.edge, l.position, he, rfl, rfl, hs, ht⟩

theorem edge_mem_of_mem_links {l : Link} (h : l ∈ g.links) : l.edge ∈ g.edges :=
  List.mem_of_getElem? (mem_links_iff.mp h).1

/-- The edges of the links between certain positions, in the order of the graph. -/
theorem map_edge_filter (between : Nat → Nat → Bool) (edges : List Edge) (k : Nat) :
    (((edges.zipIdx k).filterMap fun (e, i) => g.link? e i).filter fun l => between l.source l.target).map Link.edge =
      edges.filter fun e => (g.position? e.source).any fun s => (g.position? e.target).any (between s) := by
  induction edges generalizing k with
  | nil => rfl
  | cons e edges ih =>
    simp only [List.zipIdx_cons, List.filterMap_cons, List.filter_cons]
    cases hs : g.position? e.source with
    | none => simpa [link?, hs] using ih (k + 1)
    | some s =>
      cases ht : g.position? e.target with
      | none => simpa [link?, hs, ht] using ih (k + 1)
      | some t =>
        cases h : between s t with
        | true => simpa [link?, hs, ht, h] using ih (k + 1)
        | false => simpa [link?, hs, ht, h] using ih (k + 1)

theorem map_edge_filter_target (p : Nat) : (g.links.filter (·.target = p)).map Link.edge =
    g.edges.filter fun e => (g.position? e.source).isSome && decide (g.position? e.target = some p) := by
  rw [links, map_edge_filter fun _ t => t = p]
  refine List.filter_congr fun e _ => ?_
  cases g.position? e.source <;> cases g.position? e.target <;> simp

theorem map_edge_filter_source (p : Nat) : (g.links.filter (·.source = p)).map Link.edge =
    g.edges.filter fun e => decide (g.position? e.source = some p) && (g.position? e.target).isSome := by
  rw [links, map_edge_filter fun s _ => s = p]
  refine List.filter_congr fun e _ => ?_
  cases g.position? e.source <;> cases g.position? e.target <;> simp

theorem eq_of_edge_id_eq (distinct : (g.edges.map (·.id)).Nodup) {i j : Nat} {a b : Edge}
    (ha : g.edges[i]? = some a) (hb : g.edges[j]? = some b) (h : a.id = b.id) : i = j := by
  obtain ⟨hi, rfl⟩ := List.getElem?_eq_some_iff.mp ha
  obtain ⟨hj, rfl⟩ := List.getElem?_eq_some_iff.mp hb
  have hi' : i < (g.edges.map (·.id)).length := by simpa using hi
  have hj' : j < (g.edges.map (·.id)).length := by simpa using hj
  have heq : (g.edges.map (·.id))[i] = (g.edges.map (·.id))[j] := by simpa using h
  exact (List.getElem_inj distinct).mp heq

/-- Where edge ids are distinct, an event stands for one link. -/
theorem link_eq_of_event_eq (distinct : (g.edges.map (·.id)).Nodup) {a b : Link} (ha : a ∈ g.links)
    (hb : b ∈ g.links) (h : a.event = b.event) : a = b := by
  obtain ⟨hae, has, hat⟩ := mem_links_iff.mp ha
  obtain ⟨hbe, hbs, hbt⟩ := mem_links_iff.mp hb
  have hpos := eq_of_edge_id_eq distinct hae hbe (Event.ofEdge_inj.mp h)
  have hedge : a.edge = b.edge := by rw [hpos, hbe] at hae; exact (Option.some.inj hae).symm
  rw [hedge, hbs] at has
  rw [hedge, hbt] at hat
  cases a; cases b
  simp_all

/-- Where edge ids are distinct, an event stands for one edge. -/
theorem filter_event_eq (distinct : (g.edges.map (·.id)).Nodup) {e : Edge} (he : e ∈ g.edges) :
    g.edges.filter (fun x => Event.ofEdge x.id = Event.ofEdge e.id) = [e] := by
  simp only [Event.ofEdge_inj]
  generalize g.edges = edges at distinct he
  induction edges with
  | nil => cases he
  | cons x edges ih =>
    rw [List.map_cons, List.nodup_cons] at distinct
    obtain ⟨hx, distinct⟩ := distinct
    rcases List.mem_cons.mp he with rfl | he
    · rw [List.filter_cons_of_pos (by simp), List.filter_eq_nil_iff.mpr]
      intro y hy
      have hid : y.id ∈ edges.map (·.id) := List.mem_map_of_mem hy
      simpa using fun h : y.id = e.id => hx (h ▸ hid)
    · have hid : e.id ∈ edges.map (·.id) := List.mem_map_of_mem he
      have hne : x.id ≠ e.id := fun h => hx (h ▸ hid)
      rw [List.filter_cons_of_neg (by simpa using hne)]
      exact ih distinct he

/-! ## The first node of a kind -/

/-- The node at a position is the one that its id means. -/
def Leads (g : Graph) (p : Nat) (n : Node) : Prop := g.nodes[p]? = some n ∧ g.position? n.id = some p

theorem leads_of_position? {id : String} {p : Nat} (h : g.position? id = some p) :
    ∃ n, g.Leads p n ∧ n.id = id ∧ g.node? id = some n := by
  obtain ⟨n, hnode, hget, hid⟩ := node?_isSome_of_position? h
  exact ⟨n, ⟨hget, hid ▸ h⟩, hid, hnode⟩

theorem Leads.node? {p : Nat} {n : Node} (h : g.Leads p n) : g.node? n.id = some n := by
  rw [node?_eq_getElem? h.2, h.1]

theorem Leads.eq_of_id_eq {p q : Nat} {a b : Node} (ha : g.Leads p a) (hb : g.Leads q b) (h : a.id = b.id) :
    p = q := by
  have := ha.2
  rw [h, hb.2] at this
  exact (Option.some.inj this).symm

theorem Leads.le {p j : Nat} {n m : Node} (h : g.Leads p n) (hm : g.nodes[j]? = some m) (hid : m.id = n.id) :
    p ≤ j := by
  obtain ⟨-, hmin⟩ := position?_eq_some_iff.mp h.2
  exact Nat.le_of_not_lt fun hj => hmin j hj m hm hid

/-- The first node of a kind among the nodes that their ids mean. -/
def leading? (g : Graph) (kind : NodeKind) : Option Node :=
  g.nodes.find? fun n => n.kind = kind && g.node? n.id = some n

theorem firstOfKind?_eq_none {kind : NodeKind} (h : g.firstOfKind? kind = none) {p : Nat} {n : Node}
    (hn : g.Leads p n) : n.kind ≠ kind := by
  have := List.find?_eq_none.mp (Option.map_eq_none_iff.mp h) (n, p) (List.mk_mem_zipIdx_iff_getElem?.mpr hn.1)
  simpa [hn.2] using this

theorem firstOfKind?_eq_some {kind : NodeKind} {p : Nat} (h : g.firstOfKind? kind = some p) :
    ∃ n, g.Leads p n ∧ n.kind = kind ∧ ∀ j < p, ∀ m, g.Leads j m → m.kind ≠ kind := by
  obtain ⟨⟨n, i⟩, hf, rfl⟩ := Option.map_eq_some_iff.mp h
  obtain ⟨hp, k, hk, hget, hmin⟩ := List.find?_eq_some_iff_getElem.mp hf
  rw [List.length_zipIdx] at hk
  simp only [List.getElem_zipIdx, Nat.zero_add, Prod.mk.injEq] at hget
  obtain ⟨hget, rfl⟩ := hget
  rw [Bool.and_eq_true, decide_eq_true_eq, decide_eq_true_eq] at hp
  refine ⟨n, ⟨by rw [← hget]; exact List.getElem?_eq_getElem hk, hp.2⟩, hp.1, fun j hj m hm hkind => ?_⟩
  have := hmin j hj
  obtain ⟨hj', rfl⟩ := List.getElem?_eq_some_iff.mp hm.1
  simp [hkind, hm.2] at this

/-- Hiding is a matter of positions, and of no two equal nodes is the later one meant. -/
theorem leading?_eq_bind (g : Graph) (kind : NodeKind) :
    g.leading? kind = (g.firstOfKind? kind).bind fun p => g.nodes[p]? := by
  have leads : ∀ n : Node, g.node? n.id = some n → ∃ p, g.Leads p n := by
    intro n hn
    obtain ⟨p, hp⟩ := Option.isSome_iff_exists.mp (isSome_position?.trans (by rw [hn]; rfl))
    obtain ⟨m, hm, -, hnode⟩ := leads_of_position? hp
    rw [hn] at hnode
    exact ⟨p, Option.some.inj hnode ▸ hm⟩
  cases h : g.firstOfKind? kind with
  | none =>
    refine List.find?_eq_none.mpr fun n _ hn => ?_
    rw [Bool.and_eq_true, decide_eq_true_eq, decide_eq_true_eq] at hn
    obtain ⟨p, hp⟩ := leads n hn.2
    exact firstOfKind?_eq_none h hp hn.1
  | some p =>
    obtain ⟨n, hn, hkind, hmin⟩ := firstOfKind?_eq_some h
    obtain ⟨hp, hget⟩ := List.getElem?_eq_some_iff.mp hn.1
    rw [Option.bind_some, hn.1]
    refine List.find?_eq_some_iff_getElem.mpr ⟨by simp [hkind, hn.node?], p, hp, hget, fun j hj => ?_⟩
    rw [Bool.not_eq_true', Bool.eq_false_iff]
    intro hm
    rw [Bool.and_eq_true, decide_eq_true_eq, decide_eq_true_eq] at hm
    obtain ⟨q, hq⟩ := leads _ hm.2
    have hle := hq.le (List.getElem?_eq_getElem (by omega)) rfl
    exact hmin q (by omega) _ hq hm.1

end Graph

namespace GraphIndex

variable {ix : GraphIndex}

theorem mem_outgoing_iff {p : Nat} {l : Link} : l ∈ ix.outgoing p ↔ l ∈ ix.links ∧ l.source = p := by
  simp [outgoing]

theorem mem_incoming_iff {p : Nat} {l : Link} : l ∈ ix.incoming p ↔ l ∈ ix.links ∧ l.target = p := by
  simp [incoming]

end GraphIndex
end EventFlow
