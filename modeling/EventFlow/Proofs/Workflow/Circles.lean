/-
  EventFlow.Proofs.Workflow.Circles — steps that feed each other in a circle.

  Proved:
  - `wellFounded_of_no_circle`: on finitely many points, a relation without circles comes to an end.
  - `circlesWait_of_rank`: ranks that rise from step to step show that every circle waits.
  - `wellFounded_feedsOn`: where every circle has a step that waits for a human, going from step to
    step without passing one that waits comes to an end.
  - `exists_rank`: there, steps have ranks that fall from step to step.
-/

import EventFlow.Proofs.Workflow.Lookup
import EventFlow.Workflow.Order
import Mathlib.Data.Finset.Card
import Mathlib.Data.Fintype.Card
import Mathlib.Data.List.Chain
import Mathlib.Data.Set.Finite.List

namespace EventFlow

open Relation (TransGen)

/-- On finitely many points, a relation without circles comes to an end. -/
theorem wellFounded_of_no_circle {α : Type} [Finite α] {r : α → α → Prop} (h : ∀ a, ¬ TransGen r a a) :
    WellFounded r := by
  have : IsTrans α (TransGen r) := ⟨fun _ _ _ => TransGen.trans⟩
  have : Std.Irrefl (TransGen r) := ⟨h⟩
  exact Subrelation.wf TransGen.single (Finite.wellFounded_of_trans_of_irrefl (TransGen r))

theorem Step.feeds_iff {p c : Step} : p.feeds c = true ↔ ∃ e ∈ c.accepted, e ∈ p.emitted := by
  simp only [feeds, List.any_eq_true, emitsEvent_iff]

namespace Workflow

/-- Every circle of steps, each feeding the next and the last the first, has a step that waits for
    a human. -/
def CirclesWait (w : Workflow) : Prop :=
  ∀ first others, (∀ s ∈ first :: others, s ∈ w.steps) →
    List.IsChain (fun p c : Step => p.feeds c = true) (first :: others ++ [first]) →
    ∃ s ∈ first :: others, s.kind = .userInput

/-- It is enough that every step that does not wait feeds only steps of a higher rank. -/
theorem circlesWait_of_rank {w : Workflow} (rank : Step → Nat)
    (later : ∀ p ∈ w.steps, ∀ c ∈ w.steps, p.feeds c = true → p.kind ≠ .userInput → rank p < rank c) :
    w.CirclesWait := by
  intro first others members chain
  by_contra none
  have waits : ∀ s ∈ first :: others ++ [first], s ∈ w.steps ∧ s.kind ≠ .userInput := by
    intro s hs
    have hs : s ∈ first :: others := by
      rcases List.mem_append.mp hs with hs | hs
      · exact hs
      · exact List.mem_singleton.mp hs ▸ List.mem_cons_self
    exact ⟨members s hs, fun hkind => none ⟨s, hs, hkind⟩⟩
  have rising : List.IsChain (fun p c => rank p < rank c) (first :: others ++ [first]) :=
    List.IsChain.imp_of_mem_imp (fun p c hp hc h => later p (waits p hp).1 c (waits c hc).1 h (waits p hp).2) chain
  have : IsTrans Step fun p c => rank p < rank c := ⟨fun _ _ _ => Nat.lt_trans⟩
  have apart := List.isChain_iff_pairwise.mp rising
  rw [List.cons_append, List.pairwise_cons] at apart
  exact Nat.lt_irrefl _ (apart.1 first (by simp))

def FeedsOn (w : Workflow) (p c : { s : Step // s ∈ w.steps }) : Prop := p.1.feeds c.1 = true ∧ p.1.kind ≠ .userInput

variable {w : Workflow}

theorem kind_ne_of_chain {steps : List { s : Step // s ∈ w.steps }} {last : { s : Step // s ∈ w.steps }}
    (h : List.IsChain w.FeedsOn (steps ++ [last])) : ∀ s ∈ steps, s.1.kind ≠ .userInput := by
  induction steps with
  | nil => intro s hs; cases hs
  | cons x steps ih =>
    intro s hs
    rw [List.cons_append] at h
    rcases List.mem_cons.mp hs with rfl | hs
    · cases steps with
      | nil => exact (List.isChain_pair.mp h).2
      | cons y steps => exact (List.isChain_cons_cons.mp h).1.2
    · exact ih h.tail s hs

/-- A way from a step back to itself would be a circle in which no step waits. -/
theorem not_feedsOn_self (circles : w.CirclesWait) (s : { s : Step // s ∈ w.steps }) : ¬ TransGen w.FeedsOn s s := by
  intro h
  obtain ⟨c, hc, back⟩ := TransGen.head'_iff.mp h
  obtain ⟨others, chain, last⟩ := List.exists_isChain_cons_of_relationReflTransGen back
  have chain : List.IsChain w.FeedsOn (s :: (c :: others).dropLast ++ [s]) := by
    have h := chain.cons_cons hc
    rwa [← List.dropLast_append_getLast (List.cons_ne_nil c others), last] at h
  have waits := kind_ne_of_chain chain
  have feeds : List.IsChain (fun p c : Step => p.feeds c = true)
      ((s :: (c :: others).dropLast ++ [s]).map Subtype.val) :=
    (List.isChain_map Subtype.val).mpr (chain.imp fun _ _ h => h.1)
  rw [List.map_append, List.map_cons] at feeds
  obtain ⟨x, hx, hkind⟩ := circles s.1 ((c :: others).dropLast.map Subtype.val)
    (fun x hx => by
      obtain ⟨y, -, rfl⟩ := List.mem_map.mp (by rwa [← List.map_cons] at hx)
      exact y.2) feeds
  rw [← List.map_cons] at hx
  obtain ⟨y, hy, rfl⟩ := List.mem_map.mp hx
  exact waits y hy hkind

/-- Going on from step to step, no step of which waits, comes to an end. -/
theorem wellFounded_feedsOn (circles : w.CirclesWait) : WellFounded (flip w.FeedsOn) := by
  have : Finite { s : Step // s ∈ w.steps } := (List.finite_toSet w.steps).to_subtype
  exact wellFounded_of_no_circle fun s h => not_feedsOn_self circles s (Relation.transGen_swap.mp h)

def RanksFall (w : Workflow) (rank : Step → Nat) : Prop :=
  ∀ p ∈ w.steps, ∀ c ∈ w.steps, p.feeds c = true → p.kind ≠ .userInput → rank c < rank p

/-- The number of steps that a step leads to before one waits is such a rank. -/
theorem exists_rank (circles : w.CirclesWait) :
    ∃ rank : Step → Nat, (∀ s, rank s ≤ w.steps.length) ∧ w.RanksFall rank := by
  classical
  let ahead (s : Step) : Finset Step := w.steps.toFinset.filter fun c =>
    ∃ (hs : s ∈ w.steps) (hc : c ∈ w.steps), TransGen w.FeedsOn ⟨s, hs⟩ ⟨c, hc⟩
  refine ⟨fun s => (ahead s).card, fun s => ?_, fun p hp c hc feeds hkind => Finset.card_lt_card ?_⟩
  · exact (Finset.card_filter_le _ _).trans (List.toFinset_card_le _)
  · have on : w.FeedsOn ⟨p, hp⟩ ⟨c, hc⟩ := ⟨feeds, hkind⟩
    have sub : ahead c ⊆ ahead p := by
      intro x hx
      obtain ⟨hxs, _, hx', leads⟩ := Finset.mem_filter.mp hx
      exact Finset.mem_filter.mpr ⟨hxs, hp, hx', leads.head on⟩
    have hcp : c ∈ ahead p := Finset.mem_filter.mpr ⟨List.mem_toFinset.mpr hc, hp, hc, .single on⟩
    refine (Finset.ssubset_iff_of_subset sub).mpr ⟨c, hcp, fun hmem => ?_⟩
    obtain ⟨-, _, _, leads⟩ := Finset.mem_filter.mp hmem
    exact not_feedsOn_self circles ⟨c, hc⟩ leads

end Workflow
end EventFlow
