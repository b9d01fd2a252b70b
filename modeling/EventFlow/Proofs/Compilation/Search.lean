/-
  EventFlow.Proofs.Compilation.Search — what both searches find.

  - `takeFresh_*`: what is taken from a list of nodes and what is left make up the list.
  - `breadthFirst_*` / `depthFirst_*`: a search finds every node once (`nodup`), only nodes
    that it was led to (`ind`), and every node not found yet that a found node leads to
    (`closed`).
  - `reach_nodup`, `reach_eq_cons`, `reach_ind`, `reach_closed`: the same of the nodes that can
    be reached from a start, which comes first.
-/

import EventFlow.Compilation.Reach
import EventFlow.Proofs.Graph.Adjacency

namespace EventFlow

namespace Reach

/-! ## Taking fresh nodes -/

theorem takeFresh_cons_of_mem {t : Nat} {targets fresh : List Nat} (h : t ∈ fresh) :
    takeFresh (t :: targets) fresh =
      (t :: (takeFresh targets (fresh.erase t)).1, (takeFresh targets (fresh.erase t)).2) := by
  rw [takeFresh, if_pos h]

theorem takeFresh_cons_of_not_mem {t : Nat} {targets fresh : List Nat} (h : t ∉ fresh) :
    takeFresh (t :: targets) fresh = takeFresh targets fresh := by
  rw [takeFresh, if_neg h]

theorem takeFresh_perm (targets fresh : List Nat) :
    ((takeFresh targets fresh).1 ++ (takeFresh targets fresh).2).Perm fresh := by
  induction targets generalizing fresh with
  | nil => exact List.Perm.refl _
  | cons t targets ih =>
    by_cases h : t ∈ fresh
    · rw [takeFresh_cons_of_mem h]
      exact ((ih (fresh.erase t)).cons t).trans (List.perm_cons_erase h).symm
    · rw [takeFresh_cons_of_not_mem h]
      exact ih fresh

theorem mem_targets_of_mem_takeFresh {x : Nat} {targets fresh : List Nat}
    (h : x ∈ (takeFresh targets fresh).1) : x ∈ targets := by
  induction targets generalizing fresh with
  | nil => cases h
  | cons t targets ih =>
    by_cases ht : t ∈ fresh
    · rw [takeFresh_cons_of_mem ht] at h
      rcases List.mem_cons.mp h with rfl | h
      · exact List.mem_cons_self
      · exact List.mem_cons_of_mem _ (ih h)
    · rw [takeFresh_cons_of_not_mem ht] at h
      exact List.mem_cons_of_mem _ (ih h)

theorem mem_takeFresh_of_mem {x : Nat} {targets fresh : List Nat} (ht : x ∈ targets) (hf : x ∈ fresh) :
    x ∈ (takeFresh targets fresh).1 := by
  induction targets generalizing fresh with
  | nil => cases ht
  | cons t targets ih =>
    by_cases h : t ∈ fresh
    · rw [takeFresh_cons_of_mem h]
      by_cases e : x = t
      · exact e ▸ List.mem_cons_self
      · exact List.mem_cons_of_mem _
          (ih ((List.mem_cons.mp ht).resolve_left e) ((List.mem_erase_of_ne e).mpr hf))
    · rw [takeFresh_cons_of_not_mem h]
      have e : x ≠ t := fun e => h (e ▸ hf)
      exact ih ((List.mem_cons.mp ht).resolve_left e) hf

theorem mem_takeFresh_or {x : Nat} {fresh : List Nat} (targets : List Nat) (h : x ∈ fresh) :
    x ∈ (takeFresh targets fresh).1 ∨ x ∈ (takeFresh targets fresh).2 :=
  List.mem_append.mp ((takeFresh_perm targets fresh).mem_iff.mpr h)

variable {next : Nat → List Nat}

/-! ## Breadth first -/

theorem mem_breadthFirst_of_mem_queue {fresh queue : List Nat} {x : Nat} (h : x ∈ queue) :
    x ∈ breadthFirst next fresh queue := by
  induction fresh, queue using breadthFirst.induct next with
  | case1 => cases h
  | case2 fresh p queue ih =>
    rw [breadthFirst]
    rcases List.mem_cons.mp h with rfl | h
    · exact List.mem_cons_self
    · exact List.mem_cons_of_mem _ (ih (List.mem_append_left _ h))

/-- What holds of the queue and is handed on to fresh nodes holds of all that is found. -/
theorem breadthFirst_ind {P : Nat → Prop} {fresh queue : List Nat} (hq : ∀ x ∈ queue, P x)
    (hn : ∀ p, P p → ∀ x ∈ next p, x ∈ fresh → P x) : ∀ x ∈ breadthFirst next fresh queue, P x := by
  induction fresh, queue using breadthFirst.induct next with
  | case1 => intro x hx; rw [breadthFirst] at hx; cases hx
  | case2 fresh p queue ih =>
    intro x hx
    rw [breadthFirst] at hx
    have hp := hq p List.mem_cons_self
    have old : ∀ y, y ∈ (takeFresh (next p) fresh).1 ∨ y ∈ (takeFresh (next p) fresh).2 → y ∈ fresh :=
      fun y hy => (takeFresh_perm (next p) fresh).mem_iff.mp (List.mem_append.mpr hy)
    rcases List.mem_cons.mp hx with rfl | hx
    · exact hp
    · refine ih (fun y hy => ?_) (fun q hq y hy hf => hn q hq y hy (old y (Or.inr hf))) x hx
      rcases List.mem_append.mp hy with hy | hy
      · exact hq y (List.mem_cons_of_mem _ hy)
      · exact hn p hp y (mem_targets_of_mem_takeFresh hy) (old y (Or.inl hy))

theorem breadthFirst_closed {fresh queue : List Nat} {p x : Nat} (hp : p ∈ breadthFirst next fresh queue)
    (hx : x ∈ next p) (hf : x ∈ fresh) : x ∈ breadthFirst next fresh queue := by
  induction fresh, queue using breadthFirst.induct next with
  | case1 => rw [breadthFirst] at hp; cases hp
  | case2 fresh q queue ih =>
    rw [breadthFirst] at hp ⊢
    refine List.mem_cons_of_mem _ ?_
    rcases List.mem_cons.mp hp with rfl | hp
    · exact mem_breadthFirst_of_mem_queue (List.mem_append_right _ (mem_takeFresh_of_mem hx hf))
    · rcases mem_takeFresh_or (next q) hf with h | h
      · exact mem_breadthFirst_of_mem_queue (List.mem_append_right _ h)
      · exact ih hp h

/-- The queue and the nodes not found yet have no node in common and none twice. -/
theorem breadthFirst_nodup {fresh queue : List Nat} (h : (queue ++ fresh).Nodup) :
    (breadthFirst next fresh queue).Nodup := by
  induction fresh, queue using breadthFirst.induct next with
  | case1 => rw [breadthFirst]; exact List.nodup_nil
  | case2 fresh p queue ih =>
    rw [breadthFirst]
    obtain ⟨hp, h⟩ := List.nodup_cons.mp h
    have perm : (queue ++ (takeFresh (next p) fresh).1 ++ (takeFresh (next p) fresh).2).Perm (queue ++ fresh) := by
      rw [List.append_assoc]
      exact (takeFresh_perm (next p) fresh).append_left queue
    refine List.nodup_cons.mpr ⟨fun hmem => ?_, ih (perm.nodup_iff.mpr h)⟩
    refine hp (perm.mem_iff.mp ?_)
    refine breadthFirst_ind (P := fun x => x ∈ queue ++ (takeFresh (next p) fresh).1 ++ (takeFresh (next p) fresh).2)
      (fun x hx => List.mem_append_left _ hx) (fun _ _ x _ hx => List.mem_append_right _ hx) p hmem

/-! ## Depth first -/

theorem mem_depthFirst_of_mem_stack {fresh stack : List Nat} {x : Nat} (hs : x ∈ stack) (hf : x ∈ fresh) :
    x ∈ depthFirst next fresh stack := by
  induction fresh, stack using depthFirst.induct next with
  | case1 => cases hs
  | case2 fresh p stack hp ih =>
    rw [depthFirst, if_pos hp]
    by_cases e : x = p
    · exact e ▸ List.mem_cons_self
    · exact List.mem_cons_of_mem _
        (ih (List.mem_append_right _ ((List.mem_cons.mp hs).resolve_left e)) ((List.mem_erase_of_ne e).mpr hf))
  | case3 fresh p stack hp ih =>
    rw [depthFirst, if_neg hp]
    exact ih ((List.mem_cons.mp hs).resolve_left fun e => hp (e ▸ hf)) hf

theorem depthFirst_ind {P : Nat → Prop} {fresh stack : List Nat} (hs : ∀ x ∈ stack, x ∈ fresh → P x)
    (hn : ∀ p, P p → ∀ x ∈ next p, x ∈ fresh → P x) :
    ∀ x ∈ depthFirst next fresh stack, x ∈ fresh ∧ P x := by
  induction fresh, stack using depthFirst.induct next with
  | case1 => intro x hx; rw [depthFirst] at hx; cases hx
  | case2 fresh p stack hp ih =>
    intro x hx
    rw [depthFirst, if_pos hp] at hx
    have old : ∀ y, y ∈ fresh.erase p → y ∈ fresh := fun y hy => List.mem_of_mem_erase hy
    have hP := hs p List.mem_cons_self hp
    rcases List.mem_cons.mp hx with rfl | hx
    · exact ⟨hp, hP⟩
    · refine (ih (fun y hy hf => ?_) (fun q hq y hy hf => hn q hq y hy (old y hf)) x hx).imp_left (old x)
      rcases List.mem_append.mp hy with hy | hy
      · exact hn p hP y hy (old y hf)
      · exact hs y (List.mem_cons_of_mem _ hy) (old y hf)
  | case3 fresh p stack hp ih =>
    intro x hx
    rw [depthFirst, if_neg hp] at hx
    exact ih (fun y hy hf => hs y (List.mem_cons_of_mem _ hy) hf) hn x hx

theorem depthFirst_closed {fresh stack : List Nat} {p x : Nat} (hp : p ∈ depthFirst next fresh stack)
    (hx : x ∈ next p) (hf : x ∈ fresh) : x ∈ depthFirst next fresh stack := by
  induction fresh, stack using depthFirst.induct next with
  | case1 => rw [depthFirst] at hp; cases hp
  | case2 fresh q stack hq ih =>
    rw [depthFirst, if_pos hq] at hp ⊢
    by_cases e : x = q
    · exact e ▸ List.mem_cons_self
    · have hf' := (List.mem_erase_of_ne e).mpr hf
      refine List.mem_cons_of_mem _ ?_
      rcases List.mem_cons.mp hp with rfl | hp
      · exact mem_depthFirst_of_mem_stack (List.mem_append_left _ hx) hf'
      · exact ih hp hf'
  | case3 fresh q stack hq ih =>
    rw [depthFirst, if_neg hq] at hp ⊢
    exact ih hp hf

theorem depthFirst_nodup {fresh stack : List Nat} (h : fresh.Nodup) : (depthFirst next fresh stack).Nodup := by
  induction fresh, stack using depthFirst.induct next with
  | case1 => rw [depthFirst]; exact List.nodup_nil
  | case2 fresh p stack hp ih =>
    rw [depthFirst, if_pos hp]
    refine List.nodup_cons.mpr ⟨fun hmem => ?_, ih (h.erase p)⟩
    have := (depthFirst_ind (P := fun _ => True) (fun _ _ _ => trivial) (fun _ _ _ _ _ => trivial) p hmem).1
    exact h.not_mem_erase this
  | case3 fresh p stack hp ih =>
    rw [depthFirst, if_neg hp]
    exact ih h

end Reach

/-! ## The nodes that can be reached -/

namespace GraphIndex

variable {ix : GraphIndex} {start : Nat}

theorem mem_targets_iff {p t : Nat} : t ∈ ix.targets p ↔ ∃ l ∈ ix.outgoing p, l.target = t := List.mem_map

theorem mem_enterable_iff {p : Nat} :
    p ∈ ix.enterable ↔ p < ix.graph.nodes.length ∧ ix.isTool p = false := by
  simp [enterable]

theorem nodup_enterable (ix : GraphIndex) : ix.enterable.Nodup := List.nodup_range.filter _

theorem reach_nodup (order : SearchOrder) (start : Nat) : (ix.reach order start).Nodup := by
  cases order with
  | breadthFirst =>
    refine Reach.breadthFirst_nodup (List.nodup_cons.mpr ⟨?_, ix.nodup_enterable.erase start⟩)
    exact ix.nodup_enterable.not_mem_erase
  | depthFirst => exact Reach.depthFirst_nodup ix.nodup_enterable

/-- The start comes first. -/
theorem reach_eq_cons (order : SearchOrder) (h : start ∈ ix.enterable) :
    ∃ rest, ix.reach order start = start :: rest := by
  cases order with
  | breadthFirst => exact ⟨_, by rw [reach, Reach.breadthFirst]⟩
  | depthFirst => exact ⟨_, by rw [reach, Reach.depthFirst, if_pos h]⟩

/-- What holds of the start and is handed on along the edges holds of all that is reached. -/
theorem reach_ind {P : Nat → Prop} {order : SearchOrder} (h : start ∈ ix.enterable) (hs : P start)
    (hn : ∀ p, P p → ∀ t ∈ ix.targets p, t ∈ ix.enterable → P t) :
    ∀ p ∈ ix.reach order start, p ∈ ix.enterable ∧ P p := by
  cases order with
  | breadthFirst =>
    refine Reach.breadthFirst_ind (P := fun p => p ∈ ix.enterable ∧ P p) (fun p hp => ?_) (fun p hp t ht hf => ?_)
    · cases List.mem_singleton.mp hp
      exact ⟨h, hs⟩
    · have ht' := List.mem_of_mem_erase hf
      exact ⟨ht', hn p hp.2 t ht ht'⟩
  | depthFirst =>
    refine Reach.depthFirst_ind (fun p hp _ => ?_) hn
    cases List.mem_singleton.mp hp
    exact hs

theorem reach_closed {order : SearchOrder} (h : start ∈ ix.enterable) {p t : Nat}
    (hp : p ∈ ix.reach order start) (ht : t ∈ ix.targets p) (he : t ∈ ix.enterable) :
    t ∈ ix.reach order start := by
  cases order with
  | breadthFirst =>
    by_cases e : t = start
    · obtain ⟨rest, hr⟩ := reach_eq_cons .breadthFirst h
      rw [hr, e]
      exact List.mem_cons_self
    · exact Reach.breadthFirst_closed hp ht ((List.mem_erase_of_ne e).mpr he)
  | depthFirst => exact Reach.depthFirst_closed hp ht he

end GraphIndex
end EventFlow
