/-
  EventFlow.Proofs.Compilation.Greatest — pruning keeps as many nodes as can support each other.

  A set of nodes supports itself if each of its nodes, a start apart, has an incoming edge whose
  event some node of the set sets off. Dropping in rounds comes down to the greatest such set among
  the nodes that are found: no round drops a node of a set that supports itself, and the rounds end
  where nothing more is dropped. A circle that no event leads into supports itself and stays
  (`adrift`).

  Proved:
  - `Draft.exists_endsAfter`: the rounds that drop something are at most as many as the drafts.
  - `Draft.rewire_eq`: drafts that are wired anew in every round end up wired to those left.
  - `selfSupporting_drafts` / `mem_drafts_of_selfSupporting`: the drafts left support each other,
    and hold every set of found nodes that does.
  - `compile_pruned`: so compilation makes its steps of the greatest such set, each of which waits
    for the events of its edges that the set sets off.
-/

import EventFlow.Graph.Sample
import EventFlow.Proofs.Compilation.Drafts
import Mathlib.Data.List.Forall2
import Mathlib.Logic.Function.Iterate
import Mathlib.Order.Bounds.Defs

namespace EventFlow

/-! ## Rounds -/

namespace Draft

structure EndsAfter (ix : GraphIndex) (drafts : List Draft) (rounds : Nat) (left : List Draft) : Prop where
  after : (kept ix)^[rounds] drafts = left
  shrinks : ∀ i < rounds, ((kept ix)^[i + 1] drafts).length < ((kept ix)^[i] drafts).length
  fixed : kept ix left = left

/-- Each round that drops something leaves fewer. -/
theorem exists_endsAfter (ix : GraphIndex) (drafts : List Draft) :
    ∃ rounds, rounds + (supported ix drafts).length ≤ drafts.length ∧
      EndsAfter ix drafts rounds (supported ix drafts) := by
  induction drafts using supported.induct ix with
  | case1 drafts dropped ih =>
    obtain ⟨rounds, few, ends⟩ := ih
    rw [supported_of_dropped dropped]
    refine ⟨rounds + 1, by omega, ends.after, fun i hi => ?_, ends.fixed⟩
    cases i with
    | zero => exact dropped
    | succ i => exact ends.shrinks i (Nat.lt_of_succ_lt_succ hi)
  | case2 drafts same =>
    rw [supported_of_fixed same]
    exact ⟨0, by omega, rfl, fun i hi => absurd hi (Nat.not_lt_zero i), kept_of_fixed same⟩

/-- In one round every draft but a start is wired to the events that the drafts set off, and is
    dropped if there are none. -/
def wired (ix : GraphIndex) (drafts : List Draft) : List (Draft × Option Wires) :=
  (drafts.map fun d => (d, d.accepts ix drafts)).filter fun wiring => wiring.1.isStart || wiring.2.isSome

/-- Rounds go on until one drops nothing; the wires of that round stand. -/
def rewire (ix : GraphIndex) (drafts : List Draft) : List (Draft × Option Wires) :=
  if (wired ix drafts).length < drafts.length then rewire ix ((wired ix drafts).map (·.1)) else wired ix drafts
termination_by drafts.length
decreasing_by simpa using ‹_›

theorem wired_eq (ix : GraphIndex) (drafts : List Draft) :
    wired ix drafts = (kept ix drafts).map fun d => (d, d.accepts ix drafts) := by
  rw [wired, List.filter_map]
  refine congrArg _ (List.filter_congr fun d _ => ?_)
  cases first : d.isStart with
  | true => simp [isSupported, first]
  | false =>
    rw [isSupported, Function.comp_apply, accepts, first, if_neg Bool.false_ne_true, Bool.false_or, Bool.false_or]
    rcases Wires.ofEvents?_cases (inputs ix drafts d) with ⟨none, h⟩ | ⟨e, one, h⟩ | ⟨several, h⟩
    · rw [h, none]; rfl
    · rw [h, one]; rfl
    · rw [h, List.isEmpty_eq_false_iff.mpr (List.ne_nil_of_length_pos (by omega))]; rfl

/-- The last round wires the drafts that are left to the events that they set off. -/
theorem rewire_eq (ix : GraphIndex) (drafts : List Draft) :
    rewire ix drafts = (supported ix drafts).map fun d => (d, d.accepts ix (supported ix drafts)) := by
  induction drafts using supported.induct ix with
  | case1 drafts dropped ih =>
    have left : (wired ix drafts).map (·.1) = kept ix drafts := by simp [wired_eq, Function.comp_def]
    rw [rewire, if_pos (by rwa [wired_eq, List.length_map]), left, ih, supported_of_dropped dropped]
  | case2 drafts same =>
    rw [rewire, if_neg (by rwa [wired_eq, List.length_map]), wired_eq, kept_of_fixed same, supported_of_fixed same]

end Draft

/-! ## Sets of nodes that support themselves -/

namespace Graph

variable {g : Graph} {settings : Settings} {configs : ToolConfigs} {order : SearchOrder} {start : Nat}

def sends (g : Graph) (p : Nat) : List Event := ((g.index.emits p).map Wires.events).getD []

/-- Each node of the set, a start apart, has an incoming edge whose event a node of the set sets off. -/
def SelfSupporting (g : Graph) (K : Set Nat) : Prop :=
  ∀ p ∈ K, g.index.kind? p ≠ some .start → ∃ l ∈ g.index.incoming p, ∃ q ∈ K, l.event ∈ g.sends q

/-- The events of a node's incoming edges that some of the nodes set off, in the order of the edges. -/
def sentTo (g : Graph) (kept : List Nat) (p : Nat) : List Event :=
  ((g.index.incoming p).map Link.event).filter fun v => kept.any fun q => (g.sends q).contains v

theorem emitted_eq_sends {d : Draft} (h : d.emits = g.index.emits d.position) : d.emitted = g.sends d.position := by
  rw [Draft.emitted, h, sends]

/-- The nodes of the drafts that are left support each other. -/
theorem selfSupporting_drafts (hs : g.firstOfKind? .start = some start) :
    g.SelfSupporting {p | p ∈ (g.index.drafts order start).map (·.position)} := by
  intro p hp other
  obtain ⟨d, hd, rfl⟩ := List.mem_map.mp hp
  rcases Draft.isSupported_iff.mp (Draft.supported_fixed hd) with first | ⟨v, hv⟩
  · exact absurd ((kind?_eq (mem_drafts hs hd).2.1.1).trans (congrArg some (Draft.isStart_iff.mp first))) other
  · obtain ⟨⟨l, hl, rfl⟩, q, hq, hqv⟩ := Draft.mem_inputs_iff.mp hv
    exact ⟨l, hl, q.position, List.mem_map_of_mem hq, emitted_eq_sends (mem_drafts hs hq).2.2.2 ▸ hqv⟩

theorem exists_draft_of_reach (hs : g.firstOfKind? .start = some start) {p : Nat} (hp : p ∈ g.index.reach order start) :
    ∃ d ∈ (g.index.reach order start).filterMap g.index.draft?, d.position = p := by
  obtain ⟨n, hn, -⟩ := reach_leads hs hp
  exact ⟨⟨p, n, g.index.emits p⟩, mem_reached_iff.mpr ⟨hp, hn.1, rfl⟩, rfl⟩

/-- A set of found nodes that supports itself is never dropped from. -/
theorem mem_drafts_of_selfSupporting (hs : g.firstOfKind? .start = some start) {K : Set Nat}
    (found : ∀ p ∈ K, p ∈ g.index.reach order start) (self : g.SelfSupporting K) {p : Nat} (hp : p ∈ K) :
    p ∈ (g.index.drafts order start).map (·.position) := by
  classical
  let own := ((g.index.reach order start).filterMap g.index.draft?).filter (·.position ∈ K)
  have mem_own {d : Draft} : d ∈ own ↔ d ∈ (g.index.reach order start).filterMap g.index.draft? ∧ d.position ∈ K := by
    simp only [own, List.mem_filter, decide_eq_true_eq]
  have supported : ∀ d ∈ own, Draft.isSupported g.index own d = true := by
    intro d hd
    obtain ⟨hfound, hK⟩ := mem_own.mp hd
    obtain ⟨-, hn, -⟩ := mem_reached_iff.mp hfound
    rw [Draft.isSupported_iff, Draft.isStart_iff]
    by_cases first : d.node.kind = .start
    · exact .inl first
    · obtain ⟨l, hl, q, hq, hv⟩ := self d.position hK fun h => first (Option.some.inj ((kind?_eq hn).symm.trans h))
      obtain ⟨e, he, rfl⟩ := exists_draft_of_reach hs (found q hq)
      refine .inr ⟨l.event, Draft.mem_inputs_iff.mpr ⟨⟨l, hl, rfl⟩, e, mem_own.mpr ⟨he, hq⟩, ?_⟩⟩
      rwa [emitted_eq_sends (mem_reached_iff.mp he).2.2]
  obtain ⟨d, hd, rfl⟩ := exists_draft_of_reach hs (found p hp)
  exact List.mem_map_of_mem (Draft.mem_supported_of_selfSupporting own (fun d hd => (mem_own.mp hd).1) supported d
    (mem_own.mpr ⟨hd, hp⟩))

/-! ## The steps -/

structure StepAt (g : Graph) (kept : List Nat) (p : Nat) (s : Step) : Prop where
  node : ∃ n, g.Leads p n ∧ s.id = stepId n.id ∧ s.kind = n.kind
  emits : s.emits = g.index.emits p
  accepts : s.accepts = if s.kind = .start then none else Wires.ofEvents? (g.sentTo kept p)

theorem stepAt_stepOf (hs : g.firstOfKind? .start = some start) {d : Draft} (hd : d ∈ g.index.drafts order start) :
    g.StepAt ((g.index.drafts order start).map (·.position)) d.position (g.stepOf configs order start d) := by
  obtain ⟨-, hn, -, he⟩ := mem_drafts hs hd
  refine ⟨⟨d.node, hn, stepOf_id, stepOf_kind⟩, he, ?_⟩
  have sent : Draft.inputs g.index (g.index.drafts order start) d =
      g.sentTo ((g.index.drafts order start).map (·.position)) d.position := by
    refine List.filter_congr fun v _ => ?_
    rw [List.any_map, Bool.eq_iff_iff, List.any_eq_true, List.any_eq_true]
    refine exists_congr fun q => and_congr_right fun hq => ?_
    rw [emitted_eq_sends (mem_drafts hs hq).2.2.2]
    rfl
  rw [stepOf_accepts, stepOf_kind, Draft.accepts, sent, Draft.isStart]
  by_cases first : d.node.kind = .start <;> simp [first]

/-- How the nodes that are kept come from those that are found, and the steps from them. -/
structure Pruned (g : Graph) (found kept : List Nat) (w : Workflow) : Prop where
  inOrder : kept.Sublist found
  greatest : IsGreatest {K : Set Nat | (∀ p ∈ K, p ∈ found) ∧ g.SelfSupporting K} {p | p ∈ kept}
  steps : ∃ steps, steps.Perm w.steps ∧ List.Forall₂ (g.StepAt kept) kept steps
  rounds : ∃ n ≤ found.length, ∃ left, left.map (·.position) = kept ∧
    Draft.EndsAfter g.index (found.filterMap g.index.draft?) n left ∧
    Draft.rewire g.index (found.filterMap g.index.draft?) = left.map fun d => (d, d.accepts g.index left)

/-- Compilation keeps the greatest set of found nodes that supports itself. Each of them becomes a
    step, which waits for the events of its edges, in their order, that the set sets off. -/
theorem compile_pruned {g : Graph} {settings : Settings} {configs : ToolConfigs} {order : SearchOrder} {w : Workflow}
    (compiled : g.compile settings configs order = .ok w) :
    ∃ start kept, g.firstOfKind? .start = some start ∧ g.Pruned (g.index.reach order start) kept w := by
  obtain ⟨start, hs, rfl⟩ := compile_eq_ok_iff.mp compiled
  have sub := position_drafts_sublist order hs
  refine ⟨start, (g.index.drafts order start).map (·.position), hs, sub, ⟨⟨?_, selfSupporting_drafts hs⟩, ?_⟩, ?_, ?_⟩
  · exact fun p hp => sub.subset hp
  · rintro K ⟨found, self⟩ p hp
    exact mem_drafts_of_selfSupporting hs found self hp
  · refine ⟨_, (Step.ordered_perm _).symm, ?_⟩
    rw [List.forall₂_map_left_iff, List.forall₂_map_right_iff, List.forall₂_same]
    exact fun d hd => stepAt_stepOf hs hd
  · obtain ⟨n, few, ends⟩ := Draft.exists_endsAfter g.index ((g.index.reach order start).filterMap g.index.draft?)
    have := List.length_filterMap_le g.index.draft? (g.index.reach order start)
    exact ⟨n, by omega, _, rfl, ends, Draft.rewire_eq g.index _⟩

/-- The start sets off only its first edge. What its second leads to is dropped in two rounds; the
    circle that its third leads to stays. -/
def adrift : Graph :=
  ({ nodes := [.start "1", .stop "2", .promptLlm "3" none, .promptLlm "4" none, .promptLlm "5" none,
      .promptLlm "6" none] } : Graph)
    |>.join "e1" "1" "2" |>.join "e2" "1" "3" |>.join "e3" "3" "4" |>.join "e4" "1" "5" |>.join "e5" "5" "6"
    |>.join "e6" "6" "5"

def adriftSteps : List Step :=
  [⟨"node-1", .start none, none, some (.single ⟨"event-e1"⟩)⟩,
    ⟨"node-2", .stop none, some (.single ⟨"event-e1"⟩), none⟩,
    ⟨"node-5", .promptLlm {}, some (.single ⟨"event-e6"⟩), some (.single ⟨"event-e5"⟩)⟩,
    ⟨"node-6", .promptLlm {}, some (.single ⟨"event-e5"⟩), some (.single ⟨"event-e6"⟩)⟩]

theorem compile_adrift : adrift.compile {} .empty .breadthFirst = .ok ⟨adriftSteps, {}⟩ := by
  have hs : adrift.firstOfKind? .start = some 0 := by decide
  have steps : adrift.compiled .empty .breadthFirst 0 = adriftSteps := by decide +kernel
  rw [compile_of_firstOfKind? hs, steps]

theorem adrift_pruned :
    adrift.compile {} .empty .breadthFirst = .ok ⟨adriftSteps, {}⟩ ∧
      ∃ start kept, adrift.firstOfKind? .start = some start ∧
        adrift.Pruned (adrift.index.reach .breadthFirst start) kept ⟨adriftSteps, {}⟩ :=
  ⟨compile_adrift, compile_pruned compile_adrift⟩

end Graph
end EventFlow
