/-
  EventFlow.Proofs.Compilation.Shape — the shape of every compiled workflow.

  Whatever the graph is (ids used twice, edges without ends, circles), compilation refuses it
  for want of a start or gives a workflow in which
  - ids are distinct, the first step is the start, and no step is a tool;
  - a step waits for nothing only if it is a start, and else for the events of the edges that
    enter its node and that some step sets off, in the order of the graph;
  - what a step sets off has the form that its kind asks for.

  Proved: `compile_shape`. Each draft gives its share (`inputs_eq_map_qualifying`, `draft_emits`);
  pruning ended with the drafts that became steps, so what they wait for is set off.
-/

import EventFlow.Proofs.Compilation.Drafts

namespace EventFlow

/-- The edges that the step of an id may wait for: their ends are known, they enter the id's
    node, and some step sets off their event. -/
def Graph.qualifying (g : Graph) (w : Workflow) (id : String) : List Edge :=
  g.edges.filter fun e =>
    (g.node? e.source).isSome && (g.node? e.target).isSome && stepId e.target = id &&
      w.steps.any (·.emitsEvent (Event.ofEdge e.id))

structure Workflow.Shaped (w : Workflow) (g : Graph) (start : Node) : Prop where
  idsDistinct : (w.steps.map (·.id)).Nodup
  startFirst : ∃ s, w.steps.head? = some s ∧ w.startStep? = some s ∧ s.id = stepId start.id ∧
    s.config = start.config
  noTools : ∀ s ∈ w.steps, s.kind ≠ .agentTool
  acceptsNone : ∀ s ∈ w.steps, s.accepts = none ↔ s.kind = .start
  acceptedEmitted : ∀ s ∈ w.steps, ∀ v ∈ s.accepted, ∃ p ∈ w.steps, v ∈ p.emitted
  acceptsWires : ∀ s ∈ w.steps, s.kind ≠ .start →
    (∃ e, g.qualifying w s.id = [e] ∧ s.accepts = some (.single (Event.ofEdge e.id))) ∨
      (2 ≤ (g.qualifying w s.id).length ∧
        s.accepts = some (.many ((g.qualifying w s.id).map fun e => Event.ofEdge e.id)))
  stopEmits : ∀ s ∈ w.steps, s.kind = .stop → s.emits = none
  decisionEmits : ∀ s ∈ w.steps, s.kind = .decision →
    s.emits = none ∨ ∃ byHandle : Dictionary Event, s.emits = some (.branches byHandle) ∧
      byHandle.isEmpty = false ∧ ∀ entry ∈ byHandle.entries, entry.1 = "true" ∨ entry.1 = "false"
  splitterEmits : ∀ s ∈ w.steps, s.kind = .splitter →
    s.emits = none ∨ (∃ e, s.emits = some (.single e)) ∨ ∃ es, s.emits = some (.many es) ∧ 2 ≤ es.length
  otherEmits : ∀ s ∈ w.steps, s.kind ≠ .decision → s.kind ≠ .splitter →
    s.emits = none ∨ ∃ e, s.emits = some (.single e)

namespace Graph

variable {g : Graph} {configs : ToolConfigs} {order : SearchOrder} {start : Nat}

/-! ## What a draft waits for -/

/-- A link enters the node of a draft exactly when the edge's target is the node's id. -/
theorem position?_target_iff {p : Nat} {n : Node} (hn : g.Leads p n) (id : String) :
    g.position? id = some p ↔ (g.node? id).isSome = true ∧ stepId id = stepId n.id := by
  rw [stepId_inj]
  constructor
  · intro h
    exact ⟨by rw [← isSome_position?, h]; rfl, (position?_id h hn.1).symm⟩
  · rintro ⟨-, rfl⟩
    exact hn.2

theorem exists_emitter_iff {v : Event} :
    (∃ s ∈ g.compiled configs order start, s.emitsEvent v = true) ↔
      ∃ q ∈ g.index.drafts order start, v ∈ q.emitted := by
  constructor
  · rintro ⟨s, hs, hv⟩
    obtain ⟨q, hq, rfl⟩ := mem_compiled_iff.mp hs
    exact ⟨q, hq, Step.emitsEvent_iff.mp hv⟩
  · rintro ⟨q, hq, hv⟩
    exact ⟨_, stepOf_mem_compiled hq, Step.emitsEvent_iff.mpr hv⟩

/-- A draft waits for the events of its qualifying edges, in the order of the graph. -/
theorem inputs_eq_map_qualifying {d : Draft} (hs : g.firstOfKind? .start = some start)
    (hd : d ∈ g.index.drafts order start) (configs : ToolConfigs) (settings : Settings) :
    Draft.inputs g.index (g.index.drafts order start) d =
      (g.qualifying ⟨g.compiled configs order start, settings⟩ (stepId d.node.id)).map
        fun e => Event.ofEdge e.id := by
  have hn := (mem_drafts hs hd).2.1
  have hin : (g.index.incoming d.position).map Link.edge =
      g.edges.filter fun e => (g.position? e.source).isSome && decide (g.position? e.target = some d.position) :=
    map_edge_filter_target d.position
  have hmap : (g.index.incoming d.position).map Link.event =
      ((g.index.incoming d.position).map Link.edge).map fun e => Event.ofEdge e.id := by
    rw [List.map_map]; rfl
  rw [Draft.inputs, hmap, hin, List.filter_map, List.filter_filter, qualifying]
  congr 1
  refine List.filter_congr fun e _ => ?_
  rw [Bool.eq_iff_iff]
  simp only [Function.comp_apply, Bool.and_eq_true, decide_eq_true_eq, List.any_eq_true, exists_emitter_iff,
    position?_target_iff hn, isSome_position?, List.contains_iff_mem, and_assoc]
  constructor
  · rintro ⟨hq, hs, ht, hid⟩
    exact ⟨hs, ht, hid, hq⟩
  · rintro ⟨hs, ht, hid, hq⟩
    exact ⟨hq, hs, ht, hid⟩

theorem accepts_ne_none {d : Draft} (hd : d ∈ g.index.drafts order start) (hstart : d.isStart = false) :
    Draft.accepts g.index (g.index.drafts order start) d ≠ none := by
  rw [Draft.accepts, hstart, if_neg Bool.false_ne_true, Ne, Wires.ofEvents?_eq_none_iff]
  intro h
  rcases Draft.isSupported_iff.mp (Draft.supported_fixed hd) with hs | ⟨v, hv⟩
  · rw [hstart] at hs; cases hs
  · rw [GraphIndex.drafts] at h
    rw [h] at hv
    cases hv

/-! ## What a draft sets off -/

theorem draft_emits {d : Draft} (hs : g.firstOfKind? .start = some start) (hd : d ∈ g.index.drafts order start) :
    d.emits = none ∨
      (d.node.kind = .decision ∧ ∃ byHandle : Dictionary Event, d.emits = some (.branches byHandle) ∧
        byHandle.isEmpty = false ∧ ∀ entry ∈ byHandle.entries, entry.1 = "true" ∨ entry.1 = "false") ∨
      (d.node.kind = .splitter ∧ ∃ es, d.emits = some (.many es) ∧ 2 ≤ es.length) ∨
      (d.node.kind ≠ .stop ∧ d.node.kind ≠ .decision ∧ ∃ e, d.emits = some (.single e)) := by
  obtain ⟨-, hn, -, he⟩ := mem_drafts hs hd
  have hkind := kind?_eq hn.1
  rw [he]
  rcases GraphIndex.emits_cases g.index d.position with h | ⟨hk, hne, h⟩ | ⟨hk, hl, h⟩ | ⟨hstop, hdec, l, -, h⟩
  · exact Or.inl h
  · rw [hkind] at hk
    exact Or.inr (Or.inl ⟨Option.some.inj hk, _, h, hne, fun entry hentry => (GraphIndex.mem_branches hentry).1⟩)
  · rw [hkind] at hk
    exact Or.inr (Or.inr (Or.inl ⟨Option.some.inj hk, _, h, by simpa using hl⟩))
  · rw [hkind] at hstop hdec
    exact Or.inr (Or.inr (Or.inr ⟨fun e => hstop (by rw [e]), fun e => hdec (by rw [e]), l.event, h⟩))

/-! ## The workflow -/

theorem compiled_shaped (hs : g.firstOfKind? .start = some start) {n : Node} (hn : g.nodes[start]? = some n)
    (settings : Settings) :
    Workflow.Shaped ⟨g.compiled configs order start, settings⟩ g n := by
  have each : ∀ {P : Step → Prop}, (∀ d ∈ g.index.drafts order start,
      P (g.stepOf configs order start d)) →
      ∀ s ∈ g.compiled configs order start, P s := by
    intro P h s hmem
    obtain ⟨d, hd, rfl⟩ := mem_compiled_iff.mp hmem
    exact h d hd
  constructor
  case idsDistinct => exact compiled_ids_nodup hs configs order
  case startFirst =>
    obtain ⟨d, others, hleads, hkind, hhead⟩ := compiled_eq_cons hs configs order
    have hnode : d.node = n := by rw [hleads.1] at hn; exact Option.some.inj hn
    refine ⟨g.stepOf configs order start d, ?_, ?_, ?_, ?_⟩
    · rw [hhead]; rfl
    · rw [Workflow.startStep?, hhead, List.find?_cons_of_pos (by simp [hkind])]
    · rw [stepOf_id, hnode]
    · exact (Draft.config_eq_of_start g.index configs hkind).trans (by rw [hnode])
  case noTools => exact each fun d hd => by rw [stepOf_kind]; exact (mem_drafts hs hd).2.2.1
  case acceptsNone =>
    refine each fun d hd => ?_
    rw [stepOf_accepts, stepOf_kind]
    cases hstart : d.isStart with
    | true =>
      have hkind := Draft.isStart_iff.mp hstart
      simp [Draft.accepts, hstart, hkind]
    | false =>
      have hkind := Draft.isStart_eq_false_iff.mp hstart
      simp [accepts_ne_none hd hstart, hkind]
  case acceptedEmitted =>
    refine each fun d hd v hv => ?_
    rw [stepOf_accepted] at hv
    split at hv
    · cases hv
    · obtain ⟨-, hq⟩ := Draft.mem_inputs_iff.mp hv
      obtain ⟨p, hp, hpv⟩ := exists_emitter_iff.mpr hq
      exact ⟨p, hp, Step.emitsEvent_iff.mp hpv⟩
  case acceptsWires =>
    refine each fun d hd hkind => ?_
    rw [stepOf_kind] at hkind
    have hstart := Draft.isStart_eq_false_iff.mpr hkind
    have hinputs := inputs_eq_map_qualifying hs hd configs settings
    have hne := accepts_ne_none hd hstart
    rw [stepOf_accepts, stepOf_id]
    rw [Draft.accepts, hstart, if_neg Bool.false_ne_true, hinputs] at hne ⊢
    generalize g.qualifying _ _ = es at hne ⊢
    cases es with
    | nil => exact absurd rfl hne
    | cons a es =>
      cases es with
      | nil => exact Or.inl ⟨a, rfl, rfl⟩
      | cons b es => exact Or.inr ⟨by simp, rfl⟩
  case stopEmits =>
    refine each fun d hd hkind => ?_
    rw [stepOf_kind] at hkind
    rcases draft_emits hs hd with h | ⟨hk, -⟩ | ⟨hk, -⟩ | ⟨hk, -⟩
    · exact h
    · rw [hkind] at hk; cases hk
    · rw [hkind] at hk; cases hk
    · exact absurd hkind hk
  case decisionEmits =>
    refine each fun d hd hkind => ?_
    rw [stepOf_kind] at hkind
    rcases draft_emits hs hd with h | ⟨-, h⟩ | ⟨hk, -⟩ | ⟨-, hk, -⟩
    · exact Or.inl h
    · exact Or.inr h
    · rw [hkind] at hk; cases hk
    · exact absurd hkind hk
  case splitterEmits =>
    refine each fun d hd hkind => ?_
    rw [stepOf_kind] at hkind
    rcases draft_emits hs hd with h | ⟨hk, -⟩ | ⟨-, h⟩ | ⟨-, -, h⟩
    · exact Or.inl h
    · rw [hkind] at hk; cases hk
    · exact Or.inr (Or.inr h)
    · exact Or.inr (Or.inl h)
  case otherEmits =>
    refine each fun d hd hdecision hsplitter => ?_
    rw [stepOf_kind] at hdecision hsplitter
    rcases draft_emits hs hd with h | ⟨hk, -⟩ | ⟨hk, -⟩ | ⟨-, -, h⟩
    · exact Or.inl h
    · exact absurd hk hdecision
    · exact absurd hk hsplitter
    · exact Or.inr h

theorem exists_shaped {settings : Settings} {w : Workflow} (compiled : g.compile settings configs order = .ok w) :
    ∃ start, w.Shaped g start := by
  obtain ⟨p, first, rfl⟩ := compile_eq_ok_iff.mp compiled
  obtain ⟨start, leads, -, -⟩ := firstOfKind?_eq_some first
  exact ⟨start, compiled_shaped first leads.1 settings⟩

/-- Compilation refuses a graph exactly when no start is the first node that has its id; any
    other graph gives a workflow of the right shape. -/
theorem compile_shape (g : Graph) (settings : Settings) (configs : ToolConfigs) (order : SearchOrder) :
    (g.compile settings configs order = .error .noStart ↔
      ∀ n ∈ g.nodes, n.kind = .start → g.node? n.id ≠ some n) ∧
    (g.compile settings configs order = .error .noStart ∨
      ∃ start w, g.nodes.find? (fun n => n.kind = .start && g.node? n.id = some n) = some start ∧
        g.compile settings configs order = .ok w ∧ w.Shaped g start) := by
  have hleading := leading?_eq_bind g .start
  cases hs : g.firstOfKind? .start with
  | none =>
    have herror : g.compile settings configs order = .error .noStart := by rw [compile, hs]
    rw [hs, Option.bind_none] at hleading
    refine ⟨⟨fun _ n hn hkind hnode => ?_, fun _ => herror⟩, Or.inl herror⟩
    have := List.find?_eq_none.mp hleading n hn
    simp [hkind, hnode] at this
  | some start =>
    obtain ⟨n, hn, hkind, -⟩ := firstOfKind?_eq_some hs
    rw [hs, Option.bind_some, hn.1] at hleading
    have hok := compile_of_firstOfKind? hs settings configs order
    refine ⟨⟨fun h => ?_, fun h => ?_⟩, Or.inr ⟨n, _, hleading, hok, compiled_shaped hs hn.1 settings⟩⟩
    · rw [h] at hok; cases hok
    · exact absurd hn.node? (h n (List.mem_of_getElem? hn.1) hkind)

end Graph
end EventFlow
