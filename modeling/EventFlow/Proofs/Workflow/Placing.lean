/-
  EventFlow.Proofs.Workflow.Placing — the places that steps are put in.

  Steps are told apart by their position in the given list, for the same step may stand there
  twice. `places` is the choice that `Step.placeAll` makes, on positions.

  Proved:
  - `exists_ready`: as long as a position is pending that no circle holds up, one is ready.
  - `places_before`: such a position comes after all that feed it.
  - `places_le`: where nothing is held up, no order with producers first is smaller.
  - `places_of_forward`: where each position is fed by earlier ones only, nothing moves.
  - `ordered_eq_map_places`: the steps are put in these places.
-/

import EventFlow.Proofs.Workflow.Circles
import EventFlow.Proofs.Workflow.Order
import Mathlib.Data.Fintype.Basic
import Mathlib.Data.List.FinRange
import Mathlib.Data.List.Lex
import Mathlib.Order.Bounds.Defs
import Mathlib.Order.WellFounded

namespace EventFlow.Step

open Relation (ReflTransGen TransGen)

def FeedsAt (steps : List Step) (i j : Fin steps.length) : Prop := i ≠ j ∧ (steps.get i).feeds (steps.get j) = true

instance (steps : List Step) : DecidableRel (FeedsAt steps) := fun _ _ => inferInstanceAs (Decidable (_ ∧ _))

variable {n : Nat} (r : Fin n → Fin n → Prop)

/-- Neither the position nor one that leads to it is on a circle. -/
def Unheld (j : Fin n) : Prop := ∀ k, ReflTransGen r k j → ¬ TransGen r k k

def ProducersFirst (order : List (Fin n)) : Prop := ∀ i j, r i j → order.idxOf i < order.idxOf j

variable [DecidableRel r]

def waitsForNone (pending : List (Fin n)) (j : Fin n) : Bool := pending.all fun i => !r i j

def nextPlace (first : Fin n) (rest : List (Fin n)) : Fin n :=
  ((first :: rest).find? (waitsForNone r (first :: rest))).getD first

variable {r}

theorem waitsForNone_iff {pending : List (Fin n)} {j : Fin n} :
    waitsForNone r pending j = true ↔ ∀ i ∈ pending, ¬ r i j := by
  simp [waitsForNone]

theorem nextPlace_mem (first : Fin n) (rest : List (Fin n)) : nextPlace r first rest ∈ first :: rest := by
  unfold nextPlace
  cases h : (first :: rest).find? (waitsForNone r (first :: rest)) with
  | none => simp
  | some j => exact List.mem_of_find?_eq_some h

/-- If any is ready, the next one is the first of those. -/
theorem find?_waitsForNone {first m : Fin n} {rest : List (Fin n)} (hm : m ∈ first :: rest)
    (ready : waitsForNone r (first :: rest) m = true) :
    (first :: rest).find? (waitsForNone r (first :: rest)) = some (nextPlace r first rest) := by
  obtain ⟨next, found⟩ := Option.isSome_iff_exists.mp (List.find?_isSome.mpr ⟨m, hm, ready⟩)
  rw [nextPlace, found, Option.getD_some]

variable (r) in
/-- Places pending positions one by one. -/
def places : List (Fin n) → List (Fin n)
  | [] => []
  | first :: rest => nextPlace r first rest :: places ((first :: rest).erase (nextPlace r first rest))
termination_by pending => pending.length
decreasing_by
  have h := List.length_erase_of_mem (nextPlace_mem (r := r) first rest)
  simp only [List.length_cons] at h ⊢
  omega

theorem places_perm (pending : List (Fin n)) : (places r pending).Perm pending := by
  induction pending using places.induct r with
  | case1 => rw [places]
  | case2 first rest ih =>
    rw [places]
    exact (ih.cons _).trans (List.perm_cons_erase (nextPlace_mem first rest)).symm

/-! ## Producers first -/

/-- Going back from a pending position that no circle holds up, one arrives at a pending one that
    waits for none. -/
theorem exists_ready {pending : List (Fin n)} {j : Fin n} (hj : j ∈ pending) (free : Unheld r j) :
    ∃ m ∈ pending, waitsForNone r pending m = true := by
  -- The positions that lead to `j` have no circle, so among the pending ones there is a first.
  have ends : WellFounded fun a b => r a b ∧ ReflTransGen r b j := by
    refine wellFounded_of_no_circle fun k circle => ?_
    obtain ⟨_, _, leads⟩ := TransGen.tail'_iff.mp circle
    exact free k leads.2 (TransGen.mono (fun _ _ h => h.1) k k circle)
  obtain ⟨m, ⟨hm, leads⟩, first⟩ := ends.has_min {k | k ∈ pending ∧ ReflTransGen r k j} ⟨j, hj, .refl⟩
  exact ⟨m, hm, waitsForNone_iff.mpr fun i hi fed => first i ⟨hi, leads.head fed⟩ ⟨fed, leads⟩⟩

/-- So none is placed before its turn as long as such a position is pending. -/
theorem nextPlace_ready {first : Fin n} {rest : List (Fin n)} {j : Fin n} (hj : j ∈ first :: rest)
    (free : Unheld r j) : waitsForNone r (first :: rest) (nextPlace r first rest) = true := by
  obtain ⟨m, hm, ready⟩ := exists_ready hj free
  exact List.find?_some (find?_waitsForNone hm ready)

theorem places_before {pending : List (Fin n)} {i j : Fin n} (hi : i ∈ pending) (hj : j ∈ pending) (fed : r i j)
    (free : Unheld r j) : (places r pending).idxOf i < (places r pending).idxOf j := by
  induction pending using places.induct r with
  | case1 => cases hi
  | case2 first rest ih =>
    rw [places]
    have ready := waitsForNone_iff.mp (nextPlace_ready hj free)
    have later : nextPlace r first rest ≠ j := fun h => ready i hi (h ▸ fed)
    rw [List.idxOf_cons_ne _ later]
    by_cases turn : nextPlace r first rest = i
    · rw [turn, List.idxOf_cons_self]
      exact Nat.succ_pos _
    · rw [List.idxOf_cons_ne _ turn]
      exact Nat.succ_lt_succ (ih ((List.mem_erase_of_ne (Ne.symm turn)).mpr hi)
        ((List.mem_erase_of_ne (Ne.symm later)).mpr hj))

/-! ## Ties by the given order -/

/-- The one that is chosen is the smallest of those that are ready. -/
theorem nextPlace_le {first : Fin n} {rest : List (Fin n)} (sorted : (first :: rest).Pairwise (· < ·)) {a : Fin n}
    (ha : a ∈ first :: rest) (ready : waitsForNone r (first :: rest) a = true) : nextPlace r first rest ≤ a := by
  obtain ⟨-, skipped, others, split, busy⟩ := List.find?_eq_some_iff_append.mp (find?_waitsForNone ha ready)
  rw [split] at ha sorted
  rcases List.mem_append.mp ha with h | h
  · have := busy a h
    rw [ready] at this
    cases this
  · rcases List.mem_cons.mp h with rfl | h
    · exact le_refl _
    · exact le_of_lt ((List.pairwise_cons.mp (List.pairwise_append.mp sorted).2.1).1 a h)

/-- Any order of the pending positions in which none comes before one that feeds it is at least as
    large: where the two part, the other has taken a larger one that is ready. -/
theorem places_le {pending order : List (Fin n)} (sorted : pending.Pairwise (· < ·)) (same : order.Perm pending)
    (first : ∀ i ∈ pending, ∀ j ∈ pending, r i j → order.idxOf i < order.idxOf j) : places r pending ≤ order := by
  induction pending using places.induct r generalizing order with
  | case1 =>
    rw [places, same.eq_nil]
  | case2 p rest ih =>
    rw [places]
    cases order with
    | nil => exact absurd same.symm.eq_nil (List.cons_ne_nil p rest)
    | cons a order =>
      have ha : a ∈ p :: rest := same.mem_iff.mp List.mem_cons_self
      have ready : waitsForNone r (p :: rest) a = true := by
        refine waitsForNone_iff.mpr fun i hi fed => ?_
        have := first i hi a ha fed
        rw [List.idxOf_cons_self] at this
        exact Nat.not_lt_zero _ this
      rcases lt_or_eq_of_le (nextPlace_le sorted ha ready) with smaller | equal
      · exact le_of_lt (List.Lex.rel smaller)
      · have nodup : (p :: rest).Nodup := sorted.imp fun h => ne_of_lt h
        subst equal
        refine List.cons_le_cons _ (ih (sorted.sublist List.erase_sublist) ?_ ?_)
        · exact List.Perm.cons_inv (same.trans (List.perm_cons_erase ha))
        · intro i hi j hj fed
          obtain ⟨hia, hi⟩ := nodup.mem_erase_iff.mp hi
          obtain ⟨hja, hj⟩ := nodup.mem_erase_iff.mp hj
          have := first i hi j hj fed
          rw [List.idxOf_cons_ne _ (Ne.symm hia), List.idxOf_cons_ne _ (Ne.symm hja)] at this
          exact Nat.lt_of_succ_lt_succ this

/-- Where each position is fed by earlier ones only, nothing moves. -/
theorem places_of_forward {pending : List (Fin n)} (sorted : pending.Pairwise (· < ·))
    (forward : ∀ i j, r i j → i < j) : places r pending = pending := by
  induction pending with
  | nil => rw [places]
  | cons p rest ih =>
    obtain ⟨least, sorted⟩ := List.pairwise_cons.mp sorted
    have ready : waitsForNone r (p :: rest) p = true := by
      refine waitsForNone_iff.mpr fun i hi fed => ?_
      rcases List.mem_cons.mp hi with rfl | hi
      · exact lt_irrefl _ (forward _ _ fed)
      · exact lt_asymm (forward _ _ fed) (least i hi)
    rw [places, nextPlace, List.find?_cons_of_pos ready, Option.getD_some, List.erase_cons_head, ih sorted]

/-! ## The steps in their places -/

section

variable {steps : List Step}

def numbered (steps : List Step) (i : Fin steps.length) : Step × Nat := (steps.get i, i)

theorem numbered_injective : Function.Injective (numbered steps) :=
  fun _ _ h => Fin.ext (Prod.ext_iff.mp h).2

theorem isReady_numbered (pending : List (Fin steps.length)) (j : Fin steps.length) :
    isReady (pending.map (numbered steps)) (numbered steps j) = waitsForNone (FeedsAt steps) pending j := by
  rw [isReady, waitsForNone, List.all_map]
  refine congrArg pending.all (funext fun i => ?_)
  by_cases same : i = j <;> simp [numbered, FeedsAt, same, Fin.val_ne_of_ne]

theorem nextPlaced_numbered (first : Fin steps.length) (rest : List (Fin steps.length)) :
    nextPlaced (numbered steps first) (rest.map (numbered steps)) =
      numbered steps (nextPlace (FeedsAt steps) first rest) := by
  have same : isReady ((first :: rest).map (numbered steps)) ∘ numbered steps =
      waitsForNone (FeedsAt steps) (first :: rest) := funext fun j => isReady_numbered (first :: rest) j
  rw [nextPlaced, nextPlace, ← List.map_cons, List.find?_map, same, Option.getD_map]

theorem placeAll_numbered (pending : List (Fin steps.length)) :
    placeAll (pending.map (numbered steps)) = (places (FeedsAt steps) pending).map steps.get := by
  induction pending using places.induct (FeedsAt steps) with
  | case1 => rw [List.map_nil, placeAll, places, List.map_nil]
  | case2 first rest ih =>
    rw [List.map_cons, placeAll, nextPlaced_numbered, ← List.map_cons, ← List.map_erase numbered_injective, ih,
      places, List.map_cons]
    rfl

theorem numbered_finRange (steps : List Step) : (List.finRange steps.length).map (numbered steps) = steps.zipIdx := by
  refine List.ext_getElem (by simp) fun i h _ => ?_
  simp [numbered]

theorem ordered_eq_map_places (steps : List Step) :
    ordered steps = (places (FeedsAt steps) (List.finRange steps.length)).map steps.get := by
  rw [ordered, ← numbered_finRange, placeAll_numbered]

end

end EventFlow.Step
