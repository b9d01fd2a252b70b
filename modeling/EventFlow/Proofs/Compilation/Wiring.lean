/-
  EventFlow.Proofs.Compilation.Wiring — the events of a compiled workflow are the edges of the
  graph.

  Where edge ids are distinct, an event belongs to one link (`link_eq_of_event_eq`), and a
  step to one node. So an event that a step waits for has one edge, one step that waits for it
  and one that sets it off, and these are the steps of the edge's ends; an event that a step
  sets off leads to the step of the edge's target, unless that is a tool (which has no step)
  or a start (which waits for nothing).

  Proved: `compile_wiring`.
-/

import EventFlow.Graph.Sample
import EventFlow.Proofs.Compilation.Shape

namespace EventFlow

structure Workflow.Wired (w : Workflow) (g : Graph) : Prop where
  accepted : ∀ n ∈ w.steps, ∀ v ∈ n.accepted, ∃ e p,
    g.edges.filter (fun x => Event.ofEdge x.id = v) = [e] ∧
    w.step? (stepId e.target) = some n ∧ w.consumersOf v = [n] ∧
    w.step? (stepId e.source) = some p ∧ w.producerOf? v = some p ∧
    ∀ q ∈ w.steps, v ∈ q.emitted ↔ q = p
  emitted : ∀ p ∈ w.steps, ∀ v ∈ p.emitted, ∃ e t,
    g.edges.filter (fun x => Event.ofEdge x.id = v) = [e] ∧
    w.step? (stepId e.source) = some p ∧ g.node? e.target = some t ∧
    (t.kind ≠ .agentTool → t.kind ≠ .start → ∃ n, w.step? (stepId e.target) = some n ∧ v ∈ n.accepted)

namespace Graph

variable {g : Graph} {configs : ToolConfigs} {order : SearchOrder} {start : Nat}

/-- The links whose events a draft waits for enter its node, and some draft sets them off. -/
theorem mem_accepted_stepOf {d : Draft} {v : Event} (hv : v ∈ (g.stepOf configs order start d).accepted) :
    ∃ l ∈ g.links, l.event = v ∧ l.target = d.position ∧ ∃ q ∈ g.index.drafts order start, v ∈ q.emitted := by
  rw [stepOf_accepted] at hv
  split at hv
  · cases hv
  · obtain ⟨⟨l, hl, he⟩, hq⟩ := Draft.mem_inputs_iff.mp hv
    obtain ⟨hlinks, htarget⟩ := GraphIndex.mem_incoming_iff.mp hl
    exact ⟨l, hlinks, he, htarget, hq⟩

/-- A draft that is no start waits for the event of a link that enters its node, if some draft
    sets it off. -/
theorem mem_accepted_of_link {d q : Draft} (hstart : d.node.kind ≠ .start) {l : Link} (hl : l ∈ g.links)
    (htarget : l.target = d.position) (hq : q ∈ g.index.drafts order start) (hv : l.event ∈ q.emitted) :
    l.event ∈ (g.stepOf configs order start d).accepted := by
  rw [stepOf_accepted, Draft.isStart_eq_false_iff.mpr hstart, if_neg Bool.false_ne_true]
  exact Draft.mem_inputs_iff.mpr ⟨⟨l, GraphIndex.mem_incoming_iff.mpr ⟨hl, htarget⟩, rfl⟩, q, hq, hv⟩

section

variable (hs : g.firstOfKind? .start = some start) (settings : Settings)

include hs

/-- The step of a draft is found by the id of the draft's node. -/
theorem step?_stepOf {d : Draft} (hd : d ∈ g.index.drafts order start) {id : String}
    (hid : g.position? id = some d.position) :
    (Workflow.mk (g.compiled configs order start) settings).step? (stepId id) =
      some (g.stepOf configs order start d) := by
  have heq : id = d.node.id := (position?_id hid (mem_drafts hs hd).2.1.1).symm
  have ids := compiled_ids_nodup hs configs order
  have hmem : g.stepOf configs order start d ∈ (Workflow.mk (g.compiled configs order start) settings).steps :=
    stepOf_mem_compiled hd
  rw [heq]
  exact Workflow.step?_eq_of_mem ids hmem

theorem compiled_wired (distinct : (g.edges.map (·.id)).Nodup) :
    Workflow.Wired ⟨g.compiled configs order start, settings⟩ g := by
  have ids := compiled_ids_nodup hs configs order
  constructor
  case accepted =>
    intro n hn v hv
    obtain ⟨d, hd, rfl⟩ := mem_compiled_iff.mp hn
    obtain ⟨l, hl, rfl, htarget, q, hq, hqv⟩ := mem_accepted_stepOf hv
    -- The link that the producer sets off is the one that enters the draft's node.
    obtain ⟨l', hl', hevent, hsource, -⟩ := exists_link_of_mem_emitted hs hq hqv
    cases link_eq_of_event_eq distinct hl' hl hevent
    obtain ⟨-, hs', ht'⟩ := mem_links_iff.mp hl
    have producer : ∀ x ∈ g.compiled configs order start, l.event ∈ x.emitted →
        x = g.stepOf configs order start q := by
      intro x hx hxv
      obtain ⟨q', hq', rfl⟩ := mem_compiled_iff.mp hx
      obtain ⟨l', hl', hevent, hsource', -⟩ := exists_link_of_mem_emitted hs hq' hxv
      cases link_eq_of_event_eq distinct hl' hl hevent
      rw [draft_eq_of_position_eq hs hq' hq (hsource'.symm.trans hsource)]
    have consumer : ∀ x ∈ g.compiled configs order start, l.event ∈ x.accepted →
        x = g.stepOf configs order start d := by
      intro x hx hxv
      obtain ⟨d', hd', rfl⟩ := mem_compiled_iff.mp hx
      obtain ⟨l', hl', hevent, htarget', -⟩ := mem_accepted_stepOf hxv
      cases link_eq_of_event_eq distinct hl' hl hevent
      rw [draft_eq_of_position_eq hs hd' hd (htarget'.symm.trans htarget)]
    refine ⟨l.edge, g.stepOf configs order start q, filter_event_eq distinct (edge_mem_of_mem_links hl), ?_, ?_, ?_,
      ?_, fun x hx => ⟨producer x hx, fun h => h ▸ hqv⟩⟩
    · exact step?_stepOf hs settings hd (htarget ▸ ht')
    · exact Workflow.consumersOf_eq_of_unique ids hn hv consumer
    · exact step?_stepOf hs settings hq (hsource ▸ hs')
    · exact Workflow.producerOf?_eq_of_unique (stepOf_mem_compiled hq) hqv producer
  case emitted =>
    intro p hp v hv
    obtain ⟨q, hq, rfl⟩ := mem_compiled_iff.mp hp
    obtain ⟨l, hl, rfl, hsource, -⟩ := exists_link_of_mem_emitted hs hq hv
    obtain ⟨-, hs', ht'⟩ := mem_links_iff.mp hl
    obtain ⟨t, hnode, hget, -⟩ := node?_isSome_of_position? ht'
    refine ⟨l.edge, t, filter_event_eq distinct (edge_mem_of_mem_links hl), step?_stepOf hs settings hq (hsource ▸ hs'),
      hnode, fun tool hstart => ?_⟩
    obtain ⟨d, hd, htarget, rfl⟩ := exists_draft_of_link hs hq hl hsource hv hget tool
    exact ⟨_, step?_stepOf hs settings hd (htarget ▸ ht'), mem_accepted_of_link hstart hl htarget.symm hq hv⟩

end

/-- The wiring of a compiled workflow is the graph's. -/
theorem compile_wiring {g : Graph} {settings : Settings} {configs : ToolConfigs} {order : SearchOrder} {w : Workflow}
    (distinct : (g.edges.map (·.id)).Nodup) (compiled : g.compile settings configs order = .ok w) : w.Wired g := by
  obtain ⟨start, hs, rfl⟩ := compile_eq_ok_iff.mp compiled
  exact compiled_wired hs settings distinct

/-- A splitter that also feeds itself, and an edge whose target is unknown. -/
theorem splitCollect_wired :
    let g := (Sample.splitCollect.join "again" "2" "2").join "lost" "2" "nowhere"
    let w : Workflow := ⟨g.compiled .empty .breadthFirst 0, Sample.settings⟩
    (g.edges.map (·.id)).Nodup ∧ g.compile Sample.settings .empty .breadthFirst = .ok w ∧ w.Wired g := by
  intro g w
  have distinct : (g.edges.map (·.id)).Nodup := by decide
  have compiled : g.compile Sample.settings .empty .breadthFirst = .ok w :=
    compile_of_firstOfKind? (by decide) _ _ _
  exact ⟨distinct, compiled, compile_wiring distinct compiled⟩

end Graph
end EventFlow
