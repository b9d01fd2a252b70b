/-
  EventFlow.Proofs.Compilation.Drafts — the nodes behind the steps of a compiled workflow.

  - `mem_drafts`: each draft is of a node that its id means and that is no tool.
  - `drafts_position_nodup`: no node has two drafts.
  - `drafts_eq_cons`: the start's draft comes first.
  - `exists_draft_of_link`: an event that a draft sets off leads to a draft, unless to a tool.
  - `compile_eq_ok_iff` / `mem_compiled_iff`: the steps of the workflow are those of the drafts,
    with distinct ids (`compiled_ids_nodup`) and the start's first (`compiled_eq_cons`).
-/

import EventFlow.Compilation
import EventFlow.Proofs.Compilation.Pruning
import EventFlow.Proofs.Compilation.Search
import EventFlow.Proofs.Workflow.Order

namespace EventFlow

theorem stepId_inj {a b : String} : stepId a = stepId b ↔ a = b := by
  simp [stepId]

namespace Graph

variable {g : Graph} {order : SearchOrder} {start : Nat}

theorem kind?_eq {p : Nat} {n : Node} (h : g.nodes[p]? = some n) : g.index.kind? p = some n.kind := by
  rw [GraphIndex.kind?, GraphIndex.node?, index, h]
  rfl

theorem isTool_iff {p : Nat} {n : Node} (h : g.nodes[p]? = some n) :
    g.index.isTool p = true ↔ n.kind = .agentTool := by
  simp [GraphIndex.isTool, kind?_eq h]

theorem mem_enterable {p : Nat} {n : Node} (h : g.nodes[p]? = some n) (tool : n.kind ≠ .agentTool) :
    p ∈ g.index.enterable :=
  GraphIndex.mem_enterable_iff.mpr
    ⟨(List.getElem?_eq_some_iff.mp h).1, Bool.eq_false_iff.mpr fun e => tool ((isTool_iff h).mp e)⟩

theorem start_mem_enterable (hs : g.firstOfKind? .start = some start) : start ∈ g.index.enterable := by
  obtain ⟨n, hn, hkind, -⟩ := firstOfKind?_eq_some hs
  exact mem_enterable hn.1 (by rw [hkind]; simp)

/-- Every node that is reached is the one its id means, and no tool. -/
theorem reach_leads (hs : g.firstOfKind? .start = some start) {p : Nat} (hp : p ∈ g.index.reach order start) :
    ∃ n, g.Leads p n ∧ n.kind ≠ .agentTool := by
  obtain ⟨s, hstart, hkind, -⟩ := firstOfKind?_eq_some hs
  obtain ⟨he, n, hn⟩ := GraphIndex.reach_ind (P := fun p => ∃ n, g.Leads p n) (start_mem_enterable hs) ⟨s, hstart⟩
    (fun q _ t ht _ => by
      obtain ⟨l, hl, rfl⟩ := GraphIndex.mem_targets_iff.mp ht
      obtain ⟨-, -, htarget⟩ := mem_links_iff.mp (GraphIndex.mem_outgoing_iff.mp hl).1
      obtain ⟨n, hn, -, -⟩ := leads_of_position? htarget
      exact ⟨n, hn⟩) p hp
  refine ⟨n, hn, fun h => ?_⟩
  obtain ⟨-, htool⟩ := GraphIndex.mem_enterable_iff.mp he
  rw [(isTool_iff hn.1).mpr h] at htool
  cases htool

/-! ## Drafts -/

theorem draft?_eq_some_iff {p : Nat} {d : Draft} :
    g.index.draft? p = some d ↔ d.position = p ∧ g.nodes[p]? = some d.node ∧ d.emits = g.index.emits p := by
  obtain ⟨q, n, e⟩ := d
  simp only [GraphIndex.draft?, GraphIndex.node?, index, Option.map_eq_some_iff, Draft.mk.injEq]
  constructor
  · rintro ⟨m, hm, rfl, rfl, rfl⟩
    exact ⟨rfl, hm, rfl⟩
  · rintro ⟨rfl, hm, rfl⟩
    exact ⟨n, hm, rfl, rfl, rfl⟩

/-- The drafts of all nodes that are reached. -/
theorem mem_reached_iff {d : Draft} :
    d ∈ (g.index.reach order start).filterMap g.index.draft? ↔
      d.position ∈ g.index.reach order start ∧ g.nodes[d.position]? = some d.node ∧
        d.emits = g.index.emits d.position := by
  rw [List.mem_filterMap]
  constructor
  · rintro ⟨p, hp, hd⟩
    obtain ⟨rfl, hn, he⟩ := draft?_eq_some_iff.mp hd
    exact ⟨hp, hn, he⟩
  · rintro ⟨hp, hn, he⟩
    exact ⟨d.position, hp, draft?_eq_some_iff.mpr ⟨rfl, hn, he⟩⟩

theorem mem_drafts (hs : g.firstOfKind? .start = some start) {d : Draft} (hd : d ∈ g.index.drafts order start) :
    d.position ∈ g.index.reach order start ∧ g.Leads d.position d.node ∧ d.node.kind ≠ .agentTool ∧
      d.emits = g.index.emits d.position := by
  obtain ⟨hp, hn, he⟩ := mem_reached_iff.mp ((Draft.supported_sublist _ _).subset hd)
  obtain ⟨n, hleads, hkind⟩ := reach_leads hs hp
  have hnode : n = d.node := by rw [hleads.1] at hn; exact Option.some.inj hn
  exact ⟨hp, hnode ▸ hleads, hnode ▸ hkind, he⟩

theorem map_position_filterMap (ps : List Nat) (h : ∀ p ∈ ps, ∃ n, g.nodes[p]? = some n) :
    (ps.filterMap g.index.draft?).map (·.position) = ps := by
  induction ps with
  | nil => rfl
  | cons p ps ih =>
    obtain ⟨n, hn⟩ := h p List.mem_cons_self
    have hd : g.index.draft? p = some ⟨p, n, g.index.emits p⟩ := draft?_eq_some_iff.mpr ⟨rfl, hn, rfl⟩
    rw [List.filterMap_cons_some hd, List.map_cons, ih fun q hq => h q (List.mem_cons_of_mem _ hq)]

/-- The nodes of the drafts are among those that are reached, in their order. -/
theorem position_drafts_sublist (order : SearchOrder) (hs : g.firstOfKind? .start = some start) :
    ((g.index.drafts order start).map (·.position)).Sublist (g.index.reach order start) := by
  have h := (Draft.supported_sublist g.index ((g.index.reach order start).filterMap g.index.draft?)).map (·.position)
  rwa [map_position_filterMap _ fun p hp => (reach_leads hs hp).imp fun n hn => hn.1.1] at h

theorem drafts_position_nodup (order : SearchOrder) (hs : g.firstOfKind? .start = some start) :
    ((g.index.drafts order start).map (·.position)).Nodup :=
  (position_drafts_sublist order hs).nodup (GraphIndex.reach_nodup order start)

theorem draft_eq_of_position_eq (hs : g.firstOfKind? .start = some start) {a b : Draft}
    (ha : a ∈ g.index.drafts order start) (hb : b ∈ g.index.drafts order start) (h : a.position = b.position) :
    a = b := by
  obtain ⟨-, hna, -, hea⟩ := mem_drafts hs ha
  obtain ⟨-, hnb, -, heb⟩ := mem_drafts hs hb
  have hnode := hna.1
  rw [h, hnb.1] at hnode
  rw [h, ← heb] at hea
  cases a; cases b
  simp_all

theorem draft_eq_of_id_eq (hs : g.firstOfKind? .start = some start) {a b : Draft}
    (ha : a ∈ g.index.drafts order start) (hb : b ∈ g.index.drafts order start) (h : a.node.id = b.node.id) :
    a = b :=
  draft_eq_of_position_eq hs ha hb ((mem_drafts hs ha).2.1.eq_of_id_eq (mem_drafts hs hb).2.1 h)

/-- The start's draft comes first. -/
theorem drafts_eq_cons (order : SearchOrder) (hs : g.firstOfKind? .start = some start) :
    ∃ d rest, g.index.drafts order start = d :: rest ∧ g.Leads start d.node ∧ d.node.kind = .start := by
  obtain ⟨n, hn, hkind, -⟩ := firstOfKind?_eq_some hs
  obtain ⟨rest, hreach⟩ := GraphIndex.reach_eq_cons order (start_mem_enterable hs)
  have hd : g.index.draft? start = some ⟨start, n, g.index.emits start⟩ := draft?_eq_some_iff.mpr ⟨rfl, hn.1, rfl⟩
  have hstart : Draft.isStart ⟨start, n, g.index.emits start⟩ = true := decide_eq_true hkind
  obtain ⟨others, h⟩ : ∃ others, Draft.supported g.index _ = _ :: others :=
    Draft.supported_eq_cons hstart (rest.filterMap g.index.draft?)
  exact ⟨_, others, by rw [GraphIndex.drafts, hreach, List.filterMap_cons_some hd, h], hn, hkind⟩

/-- An event that a draft sets off stands for a link that leaves the draft's node. -/
theorem exists_link_of_emits {d : Draft} (emits : d.emits = g.index.emits d.position) {v : Event} (hv : v ∈ d.emitted) :
    ∃ l ∈ g.links, l.event = v ∧ l.source = d.position ∧ l ∈ g.index.dataLinks d.position := by
  rw [Draft.emitted, emits] at hv
  obtain ⟨l, hl, rfl⟩ := GraphIndex.exists_link_of_mem_emits hv
  obtain ⟨hlinks, hsource⟩ := GraphIndex.mem_outgoing_iff.mp (GraphIndex.mem_dataLinks_iff.mp hl).1
  exact ⟨l, hlinks, rfl, hsource, hl⟩

theorem exists_link_of_mem_emitted (hs : g.firstOfKind? .start = some start) {d : Draft}
    (hd : d ∈ g.index.drafts order start) {v : Event} (hv : v ∈ d.emitted) :
    ∃ l ∈ g.links, l.event = v ∧ l.source = d.position ∧ l ∈ g.index.dataLinks d.position :=
  exists_link_of_emits (mem_drafts hs hd).2.2.2 hv

/-- An event that a draft sets off leads to a draft, unless to a tool. -/
theorem exists_draft_of_link (hs : g.firstOfKind? .start = some start) {q : Draft}
    (hq : q ∈ g.index.drafts order start) {l : Link} (hl : l ∈ g.links) (hsource : l.source = q.position)
    (hv : l.event ∈ q.emitted) {t : Node} (ht : g.nodes[l.target]? = some t) (tool : t.kind ≠ .agentTool) :
    ∃ d ∈ g.index.drafts order start, d.position = l.target ∧ d.node = t := by
  have htargets : l.target ∈ g.index.targets q.position :=
    GraphIndex.mem_targets_iff.mpr ⟨l, GraphIndex.mem_outgoing_iff.mpr ⟨hl, hsource⟩, rfl⟩
  have hreach : l.target ∈ g.index.reach order start :=
    GraphIndex.reach_closed (start_mem_enterable hs) (mem_drafts hs hq).1 htargets (mem_enterable ht tool)
  have hmem : (⟨l.target, t, g.index.emits l.target⟩ : Draft) ∈
      (g.index.reach order start).filterMap g.index.draft? := mem_reached_iff.mpr ⟨hreach, ht, rfl⟩
  have hin : l ∈ g.index.incoming l.target := GraphIndex.mem_incoming_iff.mpr ⟨hl, rfl⟩
  exact ⟨_, Draft.mem_supported_of_fed hmem hq hin hv, rfl, rfl⟩

end Graph

/-! ## Steps -/

theorem Draft.isStart_iff {d : Draft} : d.isStart = true ↔ d.node.kind = .start := decide_eq_true_iff

theorem Draft.isStart_eq_false_iff {d : Draft} : d.isStart = false ↔ d.node.kind ≠ .start := decide_eq_false_iff_not

theorem Draft.config_kind (ix : GraphIndex) (configs : ToolConfigs) (d : Draft) :
    (d.config ix configs).kind = d.node.kind := by
  unfold config Node.kind
  cases d.node.config <;> rfl

/-- A start keeps its settings. -/
theorem Draft.config_eq_of_start (ix : GraphIndex) (configs : ToolConfigs) {d : Draft} (h : d.node.kind = .start) :
    d.config ix configs = d.node.config := by
  unfold config
  unfold Node.kind at h
  cases hc : d.node.config <;> simp_all [NodeConfig.kind]

namespace Graph

variable {g : Graph} {settings : Settings} {configs : ToolConfigs} {order : SearchOrder} {start : Nat}

def stepOf (g : Graph) (configs : ToolConfigs) (order : SearchOrder) (start : Nat) (d : Draft) : Step :=
  d.toStep g.index configs (g.index.drafts order start)

variable {d : Draft}

@[simp] theorem stepOf_id : (g.stepOf configs order start d).id = stepId d.node.id := rfl

@[simp] theorem stepOf_kind : (g.stepOf configs order start d).kind = d.node.kind := Draft.config_kind g.index configs d

@[simp] theorem stepOf_accepts :
    (g.stepOf configs order start d).accepts = d.accepts g.index (g.index.drafts order start) := rfl

theorem stepOf_accepted :
    (g.stepOf configs order start d).accepted =
      if d.isStart then [] else Draft.inputs g.index (g.index.drafts order start) d := by
  rw [Step.accepted, stepOf_accepts, Draft.accepts]
  split
  · rfl
  · exact Wires.events_ofEvents? _

def compiled (g : Graph) (configs : ToolConfigs) (order : SearchOrder) (start : Nat) : List Step :=
  Step.ordered ((g.index.drafts order start).map (g.stepOf configs order start))

theorem compile_of_firstOfKind? (hs : g.firstOfKind? .start = some start) (settings : Settings)
    (configs : ToolConfigs) (order : SearchOrder) :
    g.compile settings configs order = .ok ⟨g.compiled configs order start, settings⟩ := by
  rw [compile, hs]
  rfl

theorem compile_eq_ok_iff {w : Workflow} :
    g.compile settings configs order = .ok w ↔
      ∃ start, g.firstOfKind? .start = some start ∧ w = ⟨g.compiled configs order start, settings⟩ := by
  constructor
  · intro h
    cases hs : g.firstOfKind? .start with
    | none => rw [compile, hs] at h; cases h
    | some start =>
      rw [compile_of_firstOfKind? hs] at h
      exact ⟨start, rfl, (Except.ok.inj h).symm⟩
  · rintro ⟨start, hs, rfl⟩
    exact compile_of_firstOfKind? hs settings configs order

theorem mem_compiled_iff {s : Step} :
    s ∈ g.compiled configs order start ↔ ∃ d ∈ g.index.drafts order start, g.stepOf configs order start d = s := by
  rw [compiled, Step.mem_ordered_iff, List.mem_map]

theorem stepOf_mem_compiled (h : d ∈ g.index.drafts order start) :
    g.stepOf configs order start d ∈ g.compiled configs order start :=
  mem_compiled_iff.mpr ⟨d, h, rfl⟩

theorem compiled_ids_nodup (hs : g.firstOfKind? .start = some start) (configs : ToolConfigs) (order : SearchOrder) :
    ((g.compiled configs order start).map (·.id)).Nodup := by
  refine (((Step.ordered_perm _).map (·.id)).nodup_iff).mpr ?_
  rw [List.map_map]
  refine List.pairwise_map.mpr ?_
  have hpos := List.pairwise_map.mp (drafts_position_nodup order hs)
  refine hpos.imp_of_mem fun {a b} ha hb hne h => hne ?_
  exact congrArg Draft.position (draft_eq_of_id_eq hs ha hb (stepId_inj.mp h))

/-- The start's step comes first. -/
theorem compiled_eq_cons (hs : g.firstOfKind? .start = some start) (configs : ToolConfigs) (order : SearchOrder) :
    ∃ d others, g.Leads start d.node ∧ d.node.kind = .start ∧
      g.compiled configs order start = g.stepOf configs order start d :: others := by
  obtain ⟨d, rest, hdrafts, hn, hkind⟩ := drafts_eq_cons order hs
  have haccepted : (g.stepOf configs order start d).accepted = [] := by
    rw [stepOf_accepted, if_pos (Draft.isStart_iff.mpr hkind)]
  obtain ⟨others, h⟩ := Step.ordered_eq_cons haccepted (rest.map (g.stepOf configs order start))
  exact ⟨d, others, hn, hkind, by rw [compiled, hdrafts]; exact h⟩

end Graph
end EventFlow
