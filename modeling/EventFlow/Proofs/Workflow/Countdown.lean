/-
  EventFlow.Proofs.Workflow.Countdown — the places of steps, found by counting.

  Each position keeps the number of other positions that feed it and are not yet placed, and the
  positions for which that number is zero stand ready. The smallest ready one is placed next; where
  none is ready, the first one that is not yet placed. Placing one counts down all that it feeds.

  Proved:
  - `Sound.place`: the numbers stay those of the producers not yet placed, and no position that is
    placed stands ready.
  - `Sound.next?_eq`: so the next one is the one that `nextPlace` chooses.
  - `Sound.run_eq`: all positions are placed, in the order of `places`.
  - `ordered_countdown`: the steps stand in that order, producers first unless a circle holds them
    up; without circles it is the least such order.
-/

import EventFlow.Proofs.Workflow.Placing
import Mathlib.Data.Finset.Max

namespace EventFlow.Step

open Relation (TransGen)

variable {n : Nat} (r : Fin n → Fin n → Prop) [DecidableRel r]

def producers (j : Fin n) : Finset (Fin n) := Finset.univ.filter fun i => r i j

def dependents (i : Fin n) : List (Fin n) := (List.finRange n).filter fun j => r i j

structure Countdown (n : Nat) where
  waiting : Fin n → Nat
  ready : Finset (Fin n)
  placed : List (Fin n) := []

namespace Countdown

def start : Countdown n where
  waiting j := (producers r j).card
  ready := Finset.univ.filter fun j => (producers r j).card = 0

def release (c : Countdown n) (d : Fin n) : Countdown n :=
  { c with
    waiting := Function.update c.waiting d (c.waiting d - 1)
    ready := if c.waiting d - 1 = 0 ∧ d ∉ c.placed then insert d c.ready else c.ready }

def place (c : Countdown n) (i : Fin n) : Countdown n :=
  (dependents r i).foldl release { c with placed := c.placed ++ [i] }

/-- The position to look at next, and those that are ready besides. -/
def next? (c : Countdown n) : Option (Fin n × Finset (Fin n)) :=
  if h : c.ready.Nonempty then some (c.ready.min' h, c.ready.erase (c.ready.min' h))
  else ((List.finRange n).find? fun i => i ∉ c.placed).map fun i => (i, c.ready)

theorem foldl_release_placed (ds : List (Fin n)) (c : Countdown n) : (ds.foldl release c).placed = c.placed := by
  induction ds generalizing c with
  | nil => rfl
  | cons d ds ih => rw [List.foldl_cons, ih, release]

@[simp] theorem place_placed (c : Countdown n) (i : Fin n) : (c.place r i).placed = c.placed ++ [i] := by
  rw [place, foldl_release_placed]

theorem next?_placed {c : Countdown n} {i : Fin n} {ready : Finset (Fin n)} (h : c.next? = some (i, ready))
    (hi : i ∈ c.placed) : ready.card < c.ready.card := by
  unfold next? at h
  split at h
  · simp only [Option.some.injEq, Prod.mk.injEq] at h
    obtain ⟨rfl, rfl⟩ := h
    exact Finset.card_erase_lt_of_mem (c.ready.min'_mem _)
  · obtain ⟨_, found, h⟩ := Option.map_eq_some_iff.mp h
    cases h
    have unplaced := List.find?_some found
    exact absurd hi (of_decide_eq_true unplaced)

def run (c : Countdown n) : List (Fin n) :=
  if c.placed.length < n then
    match _next : c.next? with
    | none => c.placed
    | some (i, ready) =>
      if i ∈ c.placed then run { c with ready } else run ({ c with ready }.place r i)
  else c.placed
termination_by (n - c.placed.length, c.ready.card)
decreasing_by
  · exact Prod.Lex.right _ (next?_placed _next ‹_›)
  · refine Prod.Lex.left _ _ ?_
    simp only [place_placed, List.length_append, List.length_singleton]
    omega

/-! ## What the counts are -/

variable {r}

theorem foldl_release_waiting {ds : List (Fin n)} (apart : ds.Nodup) (c : Countdown n) (j : Fin n) :
    (ds.foldl release c).waiting j = if j ∈ ds then c.waiting j - 1 else c.waiting j := by
  induction ds generalizing c with
  | nil => simp
  | cons d ds ih =>
    obtain ⟨new, apart⟩ := List.nodup_cons.mp apart
    rw [List.foldl_cons, ih apart]
    by_cases h : j = d
    · subst h
      simp [release, new]
    · simp [release, h]

theorem mem_foldl_release_ready {ds : List (Fin n)} (apart : ds.Nodup) (c : Countdown n) (j : Fin n) :
    j ∈ (ds.foldl release c).ready ↔ j ∈ c.ready ∨ j ∈ ds ∧ c.waiting j - 1 = 0 ∧ j ∉ c.placed := by
  induction ds generalizing c with
  | nil => simp
  | cons d ds ih =>
    obtain ⟨new, apart⟩ := List.nodup_cons.mp apart
    rw [List.foldl_cons, ih apart]
    by_cases h : j = d
    · subst h
      simp only [release, new, false_and, or_false, List.mem_cons, true_and]
      split <;> simp_all
    · simp only [release, Function.update_of_ne h, List.mem_cons, h, false_or]
      split <;> simp [h]

theorem nodup_dependents (i : Fin n) : (dependents r i).Nodup := (List.nodup_finRange n).filter _

theorem mem_dependents {i j : Fin n} : j ∈ dependents r i ↔ r i j := by simp [dependents]

theorem mem_producers {i j : Fin n} : i ∈ producers r j ↔ r i j := by simp [producers]

/-- The positions not yet placed, in the given order. -/
def pending (c : Countdown n) : List (Fin n) := (List.finRange n).filter (· ∉ c.placed)

theorem mem_pending {c : Countdown n} {j : Fin n} : j ∈ c.pending ↔ j ∉ c.placed := by simp [pending]

theorem pending_nodup (c : Countdown n) : c.pending.Nodup := (List.nodup_finRange n).filter _

theorem pending_sorted (c : Countdown n) : c.pending.Pairwise (· < ·) := (List.pairwise_lt_finRange n).filter _

theorem place_pending (c : Countdown n) (i : Fin n) : (c.place r i).pending = c.pending.erase i := by
  rw [c.pending_nodup.erase_eq_filter, pending, pending, place_placed, List.filter_filter]
  refine List.filter_congr fun j _ => ?_
  by_cases h : j = i <;> simp [h]

theorem run_of_next? {c : Countdown n} (more : c.placed.length < n) {i : Fin n} {ready : Finset (Fin n)}
    (next : c.next? = some (i, ready)) (hi : i ∉ c.placed) :
    c.run r = ({ c with ready }.place r i).run r := by
  rw [run, if_pos more]
  split
  · rename_i none
    rw [next] at none
    cases none
  · rename_i found
    rw [next] at found
    cases found
    rw [if_neg hi]

variable (r) in
/-- The numbers are those of the producers not yet placed, and ready is what waits for none. -/
structure Sound (c : Countdown n) : Prop where
  nodup : c.placed.Nodup
  waiting : ∀ j, c.waiting j = ((producers r j).filter (· ∉ c.placed)).card
  ready : ∀ j, j ∈ c.ready ↔ c.waiting j = 0 ∧ j ∉ c.placed

theorem start_sound : Sound r (start r) where
  nodup := List.nodup_nil
  waiting j := by simp [start]
  ready j := by simp [start]

namespace Sound

variable {c : Countdown n}

/-- A number that is counted down is never zero before. -/
theorem waiting_pos (h : Sound r c) {i j : Fin n} (hi : i ∉ c.placed) (fed : r i j) : 0 < c.waiting j := by
  rw [h.waiting]
  exact Finset.card_pos.mpr ⟨i, Finset.mem_filter.mpr ⟨mem_producers.mpr fed, hi⟩⟩

theorem place_waiting (h : Sound r c) {i : Fin n} (hi : i ∉ c.placed) (j : Fin n) :
    ((producers r j).filter (· ∉ c.placed ++ [i])).card = if r i j then c.waiting j - 1 else c.waiting j := by
  have rest : (producers r j).filter (· ∉ c.placed ++ [i]) = ((producers r j).filter (· ∉ c.placed)).erase i := by
    ext k
    simp only [Finset.mem_filter, Finset.mem_erase, List.mem_append, List.mem_singleton]
    tauto
  rw [rest, h.waiting]
  split
  · rename_i fed
    exact Finset.card_erase_of_mem (Finset.mem_filter.mpr ⟨mem_producers.mpr fed, hi⟩)
  · rename_i fed
    exact congrArg _ (Finset.erase_eq_of_notMem fun hk => fed (mem_producers.mp (Finset.mem_filter.mp hk).1))

theorem place (h : Sound r c) {i : Fin n} (hi : i ∉ c.placed) :
    Sound r ({ c with ready := c.ready.erase i }.place r i) := by
  have count (j : Fin n) : ({ c with ready := c.ready.erase i }.place r i).waiting j =
      if r i j then c.waiting j - 1 else c.waiting j := by
    simp only [Countdown.place, foldl_release_waiting (nodup_dependents i), mem_dependents]
  refine ⟨?_, fun j => ?_, fun j => ?_⟩
  · rw [place_placed]
    exact List.nodup_append.mpr ⟨h.nodup, List.nodup_singleton i, by
      rintro a ha _ hb rfl
      exact hi (List.mem_singleton.mp hb ▸ ha)⟩
  · rw [count, place_placed, h.place_waiting hi]
  · rw [count, place_placed, Countdown.place, mem_foldl_release_ready (nodup_dependents i), mem_dependents]
    simp only [Finset.mem_erase, h.ready, List.mem_append, List.mem_singleton, not_or]
    by_cases fed : r i j
    · simp only [fed, if_true, true_and, (h.waiting_pos hi fed).ne', false_and, and_false, false_or]
    · simp only [fed, if_false, false_and, or_false]
      tauto

/-! ## The choice -/

theorem mem_ready_iff (h : Sound r c) {j : Fin n} : j ∈ c.ready ↔ j ∈ c.pending ∧ waitsForNone r c.pending j = true := by
  rw [h.ready, h.waiting, waitsForNone_iff, mem_pending, and_comm, Finset.card_eq_zero, Finset.filter_eq_empty_iff]
  simp only [mem_producers, mem_pending, not_not]
  exact and_congr_right fun _ => ⟨fun all i hi fed => hi (all fed), fun all i fed => by_contra fun hi => all i hi fed⟩

/-- Looked up by its number, the next position is the one that `nextPlace` finds among those that
    are pending. -/
theorem next?_eq (h : Sound r c) {first : Fin n} {rest : List (Fin n)} (pending : c.pending = first :: rest) :
    c.next? = some (nextPlace r first rest, c.ready.erase (nextPlace r first rest)) := by
  unfold next?
  split
  · rename_i some
    obtain ⟨least, ready⟩ := h.mem_ready_iff.mp (c.ready.min'_mem some)
    rw [pending] at least ready
    have chosen : nextPlace r first rest ∈ c.ready := by
      rw [h.mem_ready_iff, pending]
      exact ⟨nextPlace_mem first rest, List.find?_some (find?_waitsForNone least ready)⟩
    rw [le_antisymm (c.ready.min'_le _ chosen) (nextPlace_le (pending ▸ pending_sorted c) least ready)]
  · rename_i none
    have empty : c.ready = ∅ := Finset.not_nonempty_iff_eq_empty.mp none
    have busy : (first :: rest).find? (waitsForNone r (first :: rest)) = .none :=
      List.find?_eq_none.mpr fun j hj ready => none ⟨j, h.mem_ready_iff.mpr (pending ▸ ⟨hj, ready⟩)⟩
    rw [← List.head?_filter, ← Countdown.pending, pending, nextPlace, busy, empty]
    rfl

theorem placed_pending_perm (h : Sound r c) : (c.placed ++ c.pending).Perm (List.finRange n) := by
  refine (List.perm_ext_iff_of_nodup ?_ (List.nodup_finRange n)).mpr fun j => ?_
  · exact List.nodup_append.mpr ⟨h.nodup, c.pending_nodup, fun a ha b hb same =>
      mem_pending.mp hb (same ▸ ha)⟩
  · simp [mem_pending, Classical.em]

theorem pending_length (h : Sound r c) : c.placed.length + c.pending.length = n := by
  have := h.placed_pending_perm.length_eq
  rwa [List.length_append, List.length_finRange] at this

theorem exists_pending (h : Sound r c) (more : c.placed.length < n) : ∃ first rest, c.pending = first :: rest := by
  refine List.exists_cons_of_ne_nil fun none => ?_
  have := h.pending_length
  rw [none, List.length_nil] at this
  omega

theorem run_eq (h : Sound r c) : c.run r = c.placed ++ places r c.pending := by
  induction c using run.induct r with
  | case1 c more none =>
    obtain ⟨first, rest, pending⟩ := h.exists_pending more
    rw [h.next?_eq pending] at none
    cases none
  | case2 c more i ready next hi ih =>
    obtain ⟨first, rest, pending⟩ := h.exists_pending more
    rw [h.next?_eq pending] at next
    cases next
    exact absurd hi (mem_pending.mp (pending ▸ nextPlace_mem first rest))
  | case3 c more i ready next hi ih =>
    obtain ⟨first, rest, pending⟩ := h.exists_pending more
    rw [run_of_next? more next hi]
    rw [h.next?_eq pending] at next
    cases next
    have left : ({ c with ready := c.ready.erase (nextPlace r first rest) } : Countdown n).pending = first :: rest := pending
    rw [ih (h.place hi), place_placed, place_pending, left, pending, places, List.append_assoc, List.singleton_append]
  | case4 c full =>
    have none : c.pending = [] := List.eq_nil_of_length_eq_zero (by have := h.pending_length; omega)
    rw [run, if_neg full, none, places, List.append_nil]

end Sound
end Countdown

/-- The positions of the steps, in the order in which counting down places them. -/
def countdown (steps : List Step) : List (Fin steps.length) := (Countdown.start (FeedsAt steps)).run (FeedsAt steps)

theorem countdown_eq_places (steps : List Step) :
    countdown steps = places (FeedsAt steps) (List.finRange steps.length) := by
  rw [countdown, Countdown.start_sound.run_eq]
  simp [Countdown.start, Countdown.pending]

/-- The steps are placed as counting down places them. A step comes after all others that feed it
    unless a circle of several steps holds it up. Where there is no such circle, the positions are
    lexicographically the least of all orders with producers first, and steps that come in such an
    order stay as they are. -/
theorem ordered_countdown (steps : List Step) :
    (ordered steps).Perm steps ∧
    ordered steps = (countdown steps).map steps.get ∧
    (countdown steps).Perm (List.finRange steps.length) ∧
    (∀ j, Unheld (FeedsAt steps) j → ∀ i, FeedsAt steps i j → (countdown steps).idxOf i < (countdown steps).idxOf j) ∧
    ((∀ k, ¬ TransGen (FeedsAt steps) k k) →
      IsLeast {order | order.Perm (List.finRange steps.length) ∧ ProducersFirst (FeedsAt steps) order} (countdown steps)) ∧
    ((∀ i j, FeedsAt steps i j → i < j) → ordered steps = steps) := by
  have sorted := List.pairwise_lt_finRange steps.length
  have before (j : Fin steps.length) (free : Unheld (FeedsAt steps) j) (i : Fin steps.length) (fed : FeedsAt steps i j) :
      (countdown steps).idxOf i < (countdown steps).idxOf j := by
    rw [countdown_eq_places]
    exact places_before (List.mem_finRange i) (List.mem_finRange j) fed free
  have same : (countdown steps).Perm (List.finRange steps.length) := countdown_eq_places steps ▸ places_perm _
  refine ⟨ordered_perm steps, ?_, same, before, fun free => ⟨⟨same, fun i j => before j (fun k _ => free k) i⟩, ?_⟩, fun forward => ?_⟩
  · rw [ordered_eq_map_places, countdown_eq_places]
  · rintro order ⟨perm, first⟩
    rw [countdown_eq_places]
    exact places_le sorted perm fun i _ j _ => first i j
  · rw [ordered_eq_map_places, places_of_forward sorted forward, List.map_get_finRange]

/-- A splitter whose first event goes to a collector, and whose second gets there over a prompt. -/
def detour : List Step :=
  [⟨"start", .start none, none, some (.single ⟨"in"⟩)⟩,
    ⟨"split", .splitter none none, some (.single ⟨"in"⟩), some (.many [⟨"near"⟩, ⟨"far"⟩])⟩,
    ⟨"gather", .collector none none, some (.many [⟨"near"⟩, ⟨"said"⟩]), some (.single ⟨"out"⟩)⟩,
    ⟨"prompt", .promptLlm {}, some (.single ⟨"far"⟩), some (.single ⟨"said"⟩)⟩,
    ⟨"stop", .stop none, some (.single ⟨"out"⟩), none⟩]

/-- Only the collector gives way, to the prompt that feeds it. -/
theorem detour_countdown :
    (ordered detour).map (·.id) = ["start", "split", "prompt", "gather", "stop"] ∧
      (∀ k, ¬ TransGen (FeedsAt detour) k k) ∧
      IsLeast {order | order.Perm (List.finRange detour.length) ∧ ProducersFirst (FeedsAt detour) order}
        (countdown detour) := by
  let turn (i : Fin detour.length) : Nat := [0, 1, 3, 2, 4].idxOf i.val
  have later : ∀ i j, FeedsAt detour i j → turn i < turn j := by decide
  have free (k : Fin detour.length) (circle : TransGen (FeedsAt detour) k k) : False := by
    have := TransGen.lift turn later k k circle
    rw [Relation.transGen_eq_self] at this
    exact Nat.lt_irrefl _ this
  obtain ⟨-, -, -, -, least, -⟩ := ordered_countdown detour
  exact ⟨by decide +kernel, free, least free⟩

end EventFlow.Step
