/-
  EventFlow.Proofs.Compilation.SearchOrder — the order of the search decides only how steps are
  listed.

  Both searches find the same nodes, pruning asks only which drafts there are, and what a draft
  waits for is listed in the order of the graph. So the two workflows have the same steps, which
  stand in different order behind the first.

  Proved:
  - `mem_reach_iff` / `mem_supported_congr` / `mem_drafts_iff`: the same nodes are found and kept.
  - `compiled_perm` / `compiled_head?`: the steps are the same, and so is the first.
  - `compile_rearranged`: the two workflows differ in the order of their steps only.
  - `compile_agrees`: where edge ids are distinct, they answer every lookup alike.
-/

import EventFlow.Proofs.Compilation.Wiring
import EventFlow.Proofs.Workflow.Rearranged

namespace EventFlow

namespace GraphIndex

variable {ix : GraphIndex} {start : Nat}

theorem mem_reach_of_mem {order : SearchOrder} (h : start ∈ ix.enterable) (order' : SearchOrder) {p : Nat}
    (hp : p ∈ ix.reach order start) : p ∈ ix.reach order' start := by
  obtain ⟨rest, hstart⟩ := reach_eq_cons order' h
  refine (reach_ind (P := (· ∈ ix.reach order' start)) h (hstart ▸ List.mem_cons_self) ?_ p hp).2
  exact fun q hq t ht he => reach_closed h hq ht he

/-- Both searches find the same nodes. -/
theorem mem_reach_iff (h : start ∈ ix.enterable) (order order' : SearchOrder) {p : Nat} :
    p ∈ ix.reach order start ↔ p ∈ ix.reach order' start :=
  ⟨mem_reach_of_mem h order', mem_reach_of_mem h order⟩

end GraphIndex

namespace Draft

variable {ix : GraphIndex} {ds es : List Draft}

theorem inputs_congr (same : ∀ d, d ∈ ds ↔ d ∈ es) (d : Draft) : inputs ix ds d = inputs ix es d := by
  refine List.filter_congr fun v _ => ?_
  rw [Bool.eq_iff_iff, List.any_eq_true, List.any_eq_true]
  simp only [same]

/-- What is left of the drafts supports itself, so it is left of every list that holds it. -/
theorem mem_supported_of_subset (sub : ∀ d ∈ ds, d ∈ es) {d : Draft} (h : d ∈ supported ix ds) :
    d ∈ supported ix es :=
  mem_supported_of_selfSupporting (supported ix ds) (fun d hd => sub d ((supported_sublist ix ds).subset hd))
    (fun _ hd => supported_fixed hd) d h

theorem mem_supported_congr (same : ∀ d, d ∈ ds ↔ d ∈ es) {d : Draft} :
    d ∈ supported ix ds ↔ d ∈ supported ix es :=
  ⟨mem_supported_of_subset fun d => (same d).mp, mem_supported_of_subset fun d => (same d).mpr⟩

end Draft

namespace Graph

variable {g : Graph} {configs : ToolConfigs} {start : Nat} (hs : g.firstOfKind? .start = some start)
  (order order' : SearchOrder)

include hs

/-- The same drafts are kept. -/
theorem mem_drafts_iff {d : Draft} : d ∈ g.index.drafts order start ↔ d ∈ g.index.drafts order' start := by
  refine Draft.mem_supported_congr fun d => ?_
  rw [mem_reached_iff, mem_reached_iff, GraphIndex.mem_reach_iff (start_mem_enterable hs) order order']

theorem drafts_nodup : (g.index.drafts order start).Nodup :=
  List.Pairwise.of_map Draft.position (fun _ _ h e => h (congrArg Draft.position e)) (drafts_position_nodup order hs)

theorem drafts_perm : (g.index.drafts order start).Perm (g.index.drafts order' start) :=
  (List.perm_ext_iff_of_nodup (drafts_nodup hs order) (drafts_nodup hs order')).mpr fun _ =>
    mem_drafts_iff hs order order'

theorem stepOf_congr (configs : ToolConfigs) (d : Draft) :
    g.stepOf configs order start d = g.stepOf configs order' start d := by
  have inputs : Draft.inputs g.index (g.index.drafts order start) d =
      Draft.inputs g.index (g.index.drafts order' start) d :=
    Draft.inputs_congr (fun _ => mem_drafts_iff hs order order') d
  rw [stepOf, stepOf, Draft.toStep, Draft.toStep, Draft.accepts, Draft.accepts, inputs]

/-- The steps are the same. -/
theorem compiled_perm (configs : ToolConfigs) :
    (g.compiled configs order start).Perm (g.compiled configs order' start) := by
  have steps : (g.index.drafts order start).map (g.stepOf configs order start) =
      (g.index.drafts order start).map (g.stepOf configs order' start) :=
    List.map_congr_left fun d _ => stepOf_congr hs order order' configs d
  refine (Step.ordered_perm _).trans (.trans ?_ (Step.ordered_perm _).symm)
  rw [steps]
  exact (drafts_perm hs order order').map _

theorem compiled_head? (configs : ToolConfigs) :
    (g.compiled configs order start).head? = (g.compiled configs order' start).head? := by
  obtain ⟨d, others, hd, -, h⟩ := compiled_eq_cons hs configs order
  obtain ⟨d', others', hd', -, h'⟩ := compiled_eq_cons hs configs order'
  have node : d.node = d'.node := Option.some.inj (hd.1.symm.trans hd'.1)
  have first : g.stepOf configs order start d ∈ g.compiled configs order' start :=
    (compiled_perm hs order order' configs).mem_iff.mp (h ▸ List.mem_cons_self)
  have first' : g.stepOf configs order' start d' ∈ g.compiled configs order' start := h' ▸ List.mem_cons_self
  have eq := Workflow.eq_of_id_eq (w := ⟨g.compiled configs order' start, {}⟩) (compiled_ids_nodup hs configs order')
    first first' (by rw [stepOf_id, stepOf_id, node])
  rw [h, h', List.head?_cons, List.head?_cons, eq]

end Graph

/-- Where edge ids are distinct, an edge stands for each event, and its ends for one step each. -/
theorem Workflow.Wired.unambiguous {w : Workflow} {g : Graph} (wired : w.Wired g)
    (idsDistinct : (w.steps.map (·.id)).Nodup) : w.Unambiguous where
  idsDistinct := idsDistinct
  emitter p hp q hq v hpv hqv := by
    obtain ⟨e, -, edges, source, -⟩ := wired.emitted p hp v hpv
    obtain ⟨e', -, edges', source', -⟩ := wired.emitted q hq v hqv
    cases edges.symm.trans edges'
    exact Option.some.inj (source.symm.trans source')
  consumer p hp q hq v hpv hqv := by
    obtain ⟨e, -, edges, target, -⟩ := wired.accepted p hp v hpv
    obtain ⟨e', -, edges', target', -⟩ := wired.accepted q hq v hqv
    cases edges.symm.trans edges'
    exact Option.some.inj (target.symm.trans target')

namespace Graph

variable {g : Graph} {settings : Settings} {configs : ToolConfigs} {order : SearchOrder} {w : Workflow}

theorem compile_rearranged (compiled : g.compile settings configs order = .ok w) (order' : SearchOrder) :
    ∃ w', g.compile settings configs order' = .ok w' ∧ w.Rearranged w' := by
  obtain ⟨start, hs, rfl⟩ := compile_eq_ok_iff.mp compiled
  exact ⟨_, compile_of_firstOfKind? hs settings configs order',
    compiled_perm hs order order' configs, compiled_head? hs order order' configs, rfl⟩

theorem compile_agrees (distinct : (g.edges.map (·.id)).Nodup) (compiled : g.compile settings configs order = .ok w)
    {w' : Workflow} (rearranged : w.Rearranged w') : w.Agrees w' := by
  obtain ⟨p, hp, rfl⟩ := compile_eq_ok_iff.mp compiled
  obtain ⟨n, hn, hkind, -⟩ := firstOfKind?_eq_some hp
  have shaped : Workflow.Shaped ⟨g.compiled configs order p, settings⟩ g n := compiled_shaped hp hn.1 settings
  have wired : Workflow.Wired ⟨g.compiled configs order p, settings⟩ g := compiled_wired hp settings distinct
  obtain ⟨first, hfirst, -, -, hconfig⟩ := shaped.startFirst
  have started : first.kind = .start := (congrArg NodeConfig.kind hconfig).trans hkind
  exact rearranged.agrees (wired.unambiguous shaped.idsDistinct) hfirst started

end Graph
end EventFlow
