/-
  EventFlow.Proofs.Compilation.Origins — where the steps of a compiled workflow come from.

  Compilation keeps a node that the start's edges lead to, even over edges whose events nothing
  sets off, if it is a start or some node that is kept sets it off. So going back from a step to
  one that feeds it ends at a start or goes round in a circle. The first step need not be that
  start, and nothing need lead from it into the circle (`aside_unreached`).

  Proved:
  - `exists_origin`: where each step but a start is fed by a step, a start or a circle leads to it.
  - `compile_origins`: the edges of the graph lead from the start to every step, and so do the
    events of the workflow, unless the step comes from another start or from a circle.
-/

import EventFlow.Graph.Sample
import EventFlow.Proofs.Compilation.Shape
import EventFlow.Proofs.Workflow.Circles
import Mathlib.Logic.Relation

namespace EventFlow

open Relation (ReflTransGen TransGen)

namespace Workflow

/-- One step of the workflow sets off an event that another one waits for. -/
def Feeds (w : Workflow) (p c : Step) : Prop := p ∈ w.steps ∧ c ∈ w.steps ∧ p.feeds c = true

variable {w : Workflow}

/-- A start, or a step of a circle, from which the events lead to the step. -/
def Origin (w : Workflow) (s r : Step) : Prop :=
  r ∈ w.steps ∧ (r.kind = .start ∨ TransGen w.Feeds r r) ∧ ReflTransGen w.Feeds r s

theorem Origin.tail {s c r : Step} (h : w.Origin s r) (feeds : w.Feeds s c) : w.Origin c r :=
  ⟨h.1, h.2.1, h.2.2.tail feeds⟩

/-- Where each step but a start is fed by a step, a start or a circle leads to it. -/
theorem exists_origin (fed : ∀ s ∈ w.steps, s.kind ≠ .start → ∃ p, w.Feeds p s) {s : Step} (hs : s ∈ w.steps) :
    ∃ r, w.Origin s r := by
  have : Finite { s : Step // s ∈ w.steps } := (List.finite_toSet w.steps).to_subtype
  -- A step of a circle is an origin of its own, so going back from steps without one comes to an end.
  have wf : WellFounded fun p c : { s : Step // s ∈ w.steps } => w.Feeds p.1 c.1 ∧ ¬ ∃ r, w.Origin c.1 r := by
    refine wellFounded_of_no_circle fun s circle => ?_
    obtain ⟨-, -, -, lost⟩ := TransGen.tail'_iff.mp circle
    exact lost ⟨s.1, s.2, Or.inr (circle.lift Subtype.val fun _ _ h => h.1), .refl⟩
  generalize hc : (⟨s, hs⟩ : { s : Step // s ∈ w.steps }) = c
  induction c using wf.induction generalizing s with
  | h c before =>
  subst hc
  by_contra lost
  have hkind : s.kind ≠ .start := fun hkind => lost ⟨s, hs, Or.inl hkind, .refl⟩
  obtain ⟨p, feeds⟩ := fed s hs hkind
  obtain ⟨r, origin⟩ := before ⟨p, feeds.1⟩ ⟨feeds, lost⟩ feeds.1 rfl
  exact lost ⟨r, origin.tail feeds⟩

/-- What holds of a step and is handed on from step to step holds of all steps that it leads to. -/
theorem holds_of_reaches {P : Step → Prop} (next : ∀ p c, w.Feeds p c → P p → P c) {p s : Step} (hp : P p)
    (h : ReflTransGen w.Feeds p s) : P s := by
  induction h with
  | refl => exact hp
  | tail _ feeds ih => exact next _ _ feeds ih

end Workflow

namespace Graph

/-- An edge leads from the one node to the other, which is no tool. -/
def Joins (g : Graph) (a b : String) : Prop :=
  ∃ e ∈ g.edges, e.source = a ∧ e.target = b ∧ ∃ n, g.node? b = some n ∧ n.kind ≠ .agentTool

variable {g : Graph} {configs : ToolConfigs} {order : SearchOrder} {start : Nat}

/-- The edges of the graph lead from the start to every node that is reached. -/
theorem reach_joined (hs : g.firstOfKind? .start = some start) {n : Node} (hn : g.Leads start n) {p : Nat}
    (hp : p ∈ g.index.reach order start) : ∃ m, g.Leads p m ∧ ReflTransGen g.Joins n.id m.id := by
  refine (GraphIndex.reach_ind (P := fun p => ∃ m, g.Leads p m ∧ ReflTransGen g.Joins n.id m.id)
    (start_mem_enterable hs) ⟨n, hn, .refl⟩ (fun q hq t ht enterable => ?_) p hp).2
  obtain ⟨a, ha, joined⟩ := hq
  obtain ⟨l, hl, rfl⟩ := GraphIndex.mem_targets_iff.mp ht
  obtain ⟨hlinks, hsource⟩ := GraphIndex.mem_outgoing_iff.mp hl
  obtain ⟨-, hs', ht'⟩ := mem_links_iff.mp hlinks
  obtain ⟨m, hm, hid, hnode⟩ := leads_of_position? ht'
  have tool : m.kind ≠ .agentTool := by
    intro hkind
    obtain ⟨-, htool⟩ := GraphIndex.mem_enterable_iff.mp enterable
    rw [(isTool_iff hm.1).mpr hkind] at htool
    cases htool
  have source : l.edge.source = a.id := by
    rw [hsource] at hs'
    exact (position?_id hs' ha.1).symm
  exact ⟨m, hm, joined.tail ⟨l.edge, edge_mem_of_mem_links hlinks, source, hid.symm, m, hid ▸ hnode, tool⟩⟩

/-- A step that is no start is fed by a step. -/
theorem compiled_fed (settings : Settings) {s : Step} (hmem : s ∈ g.compiled configs order start)
    (hkind : s.kind ≠ .start) : ∃ p, Workflow.Feeds ⟨g.compiled configs order start, settings⟩ p s := by
  obtain ⟨d, hd, rfl⟩ := mem_compiled_iff.mp hmem
  rw [stepOf_kind] at hkind
  have started := Draft.isStart_eq_false_iff.mpr hkind
  rcases Draft.isSupported_iff.mp (Draft.supported_fixed hd) with h | ⟨v, hv⟩
  · rw [started] at h; cases h
  · obtain ⟨-, q, hq, hqv⟩ := Draft.mem_inputs_iff.mp hv
    have accepted : v ∈ (g.stepOf configs order start d).accepted := by
      rw [stepOf_accepted, started, if_neg Bool.false_ne_true]
      exact hv
    exact ⟨g.stepOf configs order start q, stepOf_mem_compiled hq, hmem, Step.feeds_iff.mpr ⟨v, accepted, hqv⟩⟩

/-! ## A graph with a circle and a start aside -/

/-- The start leads to a stop only; its other edges, whose events nothing sets off, lead into a
    circle and to another start. -/
def aside : Graph :=
  ({ nodes := [.start "1", .promptLlm "2" none, .promptLlm "3" none, .stop "4", .start "5"] } : Graph)
    |>.join "e1" "1" "4" |>.join "e2" "1" "2" |>.join "e3" "2" "3" |>.join "e4" "3" "2" |>.join "e5" "1" "5"

def asideSteps : List Step :=
  [⟨"node-1", .start none, none, some (.single ⟨"event-e1"⟩)⟩,
    ⟨"node-4", .stop none, some (.single ⟨"event-e1"⟩), none⟩,
    ⟨"node-5", .start none, none, none⟩,
    ⟨"node-2", .promptLlm {}, some (.single ⟨"event-e4"⟩), some (.single ⟨"event-e3"⟩)⟩,
    ⟨"node-3", .promptLlm {}, some (.single ⟨"event-e3"⟩), some (.single ⟨"event-e4"⟩)⟩]

theorem compile_aside : aside.compile {} .empty .breadthFirst = .ok ⟨asideSteps, {}⟩ := by
  have hs : aside.firstOfKind? .start = some 0 := by decide
  have steps : aside.compiled .empty .breadthFirst 0 = asideSteps := by decide +kernel
  rw [compile_of_firstOfKind? hs, steps]

/-! ## Compiled workflows -/

/-- The edges of the graph lead from the start to every step. The events of the workflow do too,
    unless the step comes from a start or from a circle that they do not lead to. -/
theorem compile_origins {g : Graph} {settings : Settings} {configs : ToolConfigs} {order : SearchOrder} {w : Workflow}
    (compiled : g.compile settings configs order = .ok w) :
    ∃ start first, g.leading? .start = some start ∧ w.steps.head? = some first ∧ first.id = stepId start.id ∧
      ∀ s ∈ w.steps,
        (∃ id, s.id = stepId id ∧ ReflTransGen g.Joins start.id id) ∧
        (ReflTransGen w.Feeds first s ∨ ∃ r, w.Origin s r ∧ ¬ ReflTransGen w.Feeds first r) := by
  obtain ⟨p, hp, rfl⟩ := compile_eq_ok_iff.mp compiled
  obtain ⟨n, hn, -, -⟩ := firstOfKind?_eq_some hp
  have hleading : g.leading? .start = some n := by rw [leading?_eq_bind, hp, Option.bind_some, hn.1]
  have shaped : Workflow.Shaped ⟨g.compiled configs order p, settings⟩ g n := compiled_shaped hp hn.1 settings
  obtain ⟨first, hfirst, -, hid, -⟩ := shaped.startFirst
  refine ⟨n, first, hleading, hfirst, hid, fun s hmem => ⟨?_, ?_⟩⟩
  · obtain ⟨d, hd, rfl⟩ := mem_compiled_iff.mp hmem
    obtain ⟨m, hm, joined⟩ := reach_joined hp hn (mem_drafts hp hd).1
    have hnode := (mem_drafts hp hd).2.1.1
    rw [hm.1] at hnode
    cases hnode
    exact ⟨_, stepOf_id, joined⟩
  · obtain ⟨r, origin⟩ := Workflow.exists_origin (fun s hs hkind => compiled_fed settings hs hkind) hmem
    by_cases reached : ReflTransGen (Workflow.Feeds ⟨g.compiled configs order p, settings⟩) first r
    · exact Or.inl (reached.trans origin.2.2)
    · exact Or.inr ⟨r, origin, reached⟩

/-- The edges lead to all steps; the events lead to the others from the second start and from the circle. -/
theorem aside_origins :
    ∃ w, aside.compile {} .empty .breadthFirst = .ok w ∧
      ∃ start first, aside.leading? .start = some start ∧ w.steps.head? = some first ∧ first.id = stepId start.id ∧
        ∀ s ∈ w.steps,
          (∃ id, s.id = stepId id ∧ ReflTransGen aside.Joins start.id id) ∧
          (ReflTransGen w.Feeds first s ∨ ∃ r, w.Origin s r ∧ ¬ ReflTransGen w.Feeds first r) :=
  ⟨_, compile_aside, compile_origins compile_aside⟩

/-- The first step need not lead to a step that compilation keeps: neither to another start nor
    into a circle. -/
theorem aside_unreached :
    ∃ w first second circle, aside.compile {} .empty .breadthFirst = .ok w ∧ w.steps.head? = some first ∧
      (second ∈ w.steps ∧ second.kind = .start ∧ ¬ ReflTransGen w.Feeds first second) ∧
      circle ∈ w.steps ∧ TransGen w.Feeds circle circle ∧ ¬ ReflTransGen w.Feeds first circle := by
  have kept : ∀ p ∈ asideSteps, ∀ c ∈ asideSteps, p.feeds c = true →
      p.id ∈ ["node-1", "node-4"] → c.id ∈ ["node-1", "node-4"] := by decide
  have reached : ∀ s, ReflTransGen (Workflow.Feeds ⟨asideSteps, {}⟩) asideSteps[0] s →
      s.id ∈ ["node-1", "node-4"] := fun s =>
    Workflow.holds_of_reaches (fun p c h => kept p h.1 c h.2.1 h.2.2) (by decide)
  have around : TransGen (Workflow.Feeds ⟨asideSteps, {}⟩) asideSteps[3] asideSteps[3] :=
    .tail (b := asideSteps[4]) (.single ⟨by decide, by decide, by decide⟩) ⟨by decide, by decide, by decide⟩
  refine ⟨_, asideSteps[0], asideSteps[2], asideSteps[3], compile_aside, rfl, ⟨by decide, rfl, fun h => ?_⟩,
    by decide, around, fun h => ?_⟩
  · exact absurd (reached _ h) (by decide)
  · exact absurd (reached _ h) (by decide)

end Graph
end EventFlow
