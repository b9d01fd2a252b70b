/-
  EventFlow.Proofs.Program.Names — names that are not taken.

  A name that is taken is numbered from two on until it is new. The numbered names are all different, so
  one more of them than there are taken names has one that is free: the search ends. Events get their
  constants one after the other, each avoiding the constants given before and those of the start and the
  stop.

  Proved:
  - `freshName_spec`: the first numbered name that is not taken.
  - `eventNames_sound`: what holds of the constants of all events (`EventNames.Sound`), by induction on
    the events in the order of first mention.
  - `get_inj` / `get_new`: different events have different constants, none that of the start or the stop.
-/

import EventFlow.Program.Plan
import Mathlib.Data.List.Nodup
import Mathlib.Data.List.Perm.Subperm

namespace EventFlow

/-! ## Lists without repetitions -/

/-- Adding what is new keeps a list free of repetitions. -/
theorem nodup_foldl_new {α : Type} [BEq α] [LawfulBEq α] {names : List α} (added : List α) (nodup : names.Nodup) :
    (added.foldl (fun names name => if names.contains name then names else names ++ [name]) names).Nodup := by
  induction added generalizing names with
  | nil => exact nodup
  | cons name added ih =>
    refine ih ?_
    dsimp only
    split
    · exact nodup
    · next new =>
      have absent : name ∉ names := fun member => new (List.contains_iff_mem.mpr member)
      exact List.nodup_append_comm.mp (List.nodup_cons.mpr ⟨absent, nodup⟩ : ([name] ++ names).Nodup)

theorem mem_foldl_new_iff {α : Type} [BEq α] [LawfulBEq α] {names added : List α} {a : α} :
    a ∈ added.foldl (fun names name => if names.contains name then names else names ++ [name]) names ↔
      a ∈ names ∨ a ∈ added := by
  induction added generalizing names with
  | nil => simp
  | cons name added ih =>
    rw [List.foldl_cons, ih, List.mem_cons, ← or_assoc]
    refine or_congr_left ?_
    split
    · next old =>
      have member := List.contains_iff_mem.mp old
      exact ⟨.inl, fun h => h.elim id fun same => same ▸ member⟩
    · simp

/-! ## Numbered names -/

/-- The names that are tried, in order: the name itself, then numbered from two. -/
def numbered (separator base : String) : Nat → String
  | 0 => base
  | k + 1 => base ++ separator ++ toString (k + 2)

theorem numbered_injective (separator base : String) : Function.Injective (numbered separator base) := by
  have longer (k : Nat) : base ≠ base ++ separator ++ toString k := by
    intro same
    have length := congrArg String.length same
    rw [String.length_append, String.length_append, Nat.toString_eq_repr, ← String.length_toList (s := k.repr),
      Nat.toList_repr] at length
    have some : (Nat.toDigits 10 k).length ≠ 0 := fun none => Nat.toDigits_ne_nil (List.eq_nil_of_length_eq_zero none)
    omega
  intro i j same
  cases i with
  | zero =>
    cases j with
    | zero => rfl
    | succ j => exact absurd same (longer _)
  | succ i =>
    cases j with
    | zero => exact absurd same.symm (longer _)
    | succ j =>
      have digits : Nat.toDigits 10 (i + 2) = Nat.toDigits 10 (j + 2) := by
        rw [← Nat.toList_repr, ← Nat.toList_repr]
        exact congrArg String.toList ((String.append_right_inj _).mp same)
      have number := congrArg (fun ds => Nat.ofDigitChars 10 ds 0) digits
      simp only [Nat.ofDigitChars_ten_toDigits] at number
      omega

/-- The search ends, with the first name that is not taken. -/
theorem freshName_spec (taken : List String) (separator base : String) :
    ∃ k, freshName taken separator base = numbered separator base k ∧ numbered separator base k ∉ taken ∧
      ∀ j < k, numbered separator base j ∈ taken := by
  have candidates : base :: (List.range taken.length).map (fun i => base ++ separator ++ toString (i + 2)) =
      (List.range (taken.length + 1)).map (numbered separator base) := by
    rw [List.range_succ_eq_map, List.map_cons, List.map_map]
    rfl
  unfold freshName
  simp only [candidates, List.find?_map]
  cases found : (List.range (taken.length + 1)).find? ((fun name => !taken.contains name) ∘ numbered separator base) with
  | none =>
    -- More names than there are taken ones cannot all be taken.
    have all : ((List.range (taken.length + 1)).map (numbered separator base)).Subperm taken := by
      refine List.subperm_of_subset (List.Nodup.map (numbered_injective separator base) List.nodup_range) ?_
      intro name member
      obtain ⟨i, among, rfl⟩ := List.mem_map.mp member
      simpa using List.find?_eq_none.mp found i among
    have := all.length_le
    rw [List.length_map, List.length_range] at this
    omega
  | some k =>
    obtain ⟨free, -, before⟩ := List.find?_range_eq_some.mp found
    refine ⟨k, rfl, by simpa using free, ?_⟩
    intro j less
    simpa using before j less

/-! ## The constants of events -/

namespace Workflow

def EventNames.taken (names : EventNames) : List String := [Program.startEvent, Program.stopEvent] ++ names.map (·.2)

structure EventNames.Sound (names : EventNames) : Prop where
  events : (names.map (·.1)).Nodup
  taken : names.taken.Nodup
  chosen : ∀ (before after : EventNames) (e : Event) (name : String), names = before ++ (e, name) :: after →
    ∃ k, name = numbered "_" e.ident k ∧ name ∉ before.taken ∧ ∀ j < k, numbered "_" e.ident j ∈ before.taken

namespace EventNames

variable {names : EventNames} {e f : Event}

theorem Sound.nil : Sound [] := ⟨.nil, by decide, fun before _ _ _ same => by cases before <;> cases same⟩

theorem Sound.name (sound : names.Sound) (e : Event) : (nameEvent names e).Sound := by
  unfold nameEvent
  split
  · exact sound
  · next new =>
    obtain ⟨k, named, free, before⟩ := freshName_spec names.taken "_" e.ident
    have unnamed : e ∉ names.map (·.1) := by
      intro member
      obtain ⟨entry, among, rfl⟩ := List.mem_map.mp member
      exact new (List.any_eq_true.mpr ⟨entry, among, by simp⟩)
    show Sound (names ++ [(e, freshName names.taken "_" e.ident)])
    rw [named]
    refine ⟨?_, ?_, ?_⟩
    · rw [List.map_append, List.map_cons, List.map_nil]
      exact (List.nodup_append_comm.mp (List.nodup_cons.mpr ⟨unnamed, sound.events⟩ : ([e] ++ _).Nodup))
    · rw [EventNames.taken, List.map_append, ← List.append_assoc]
      exact (List.nodup_append_comm.mp (List.nodup_cons.mpr ⟨free, sound.taken⟩ : ([_] ++ _).Nodup))
    · intro front back e' name' same
      -- The last entry is the new one, all others were there before.
      rcases List.eq_nil_or_concat back with rfl | ⟨back, last, rfl⟩
      · obtain ⟨rfl, entry⟩ := List.append_inj' same rfl
        cases entry
        exact ⟨k, rfl, free, before⟩
      · rw [List.concat_eq_append, ← List.cons_append, ← List.append_assoc] at same
        obtain ⟨old, -⟩ := List.append_inj' same rfl
        exact sound.chosen front back e' name' old

theorem mem_name_iff : f ∈ (nameEvent names e).map (·.1) ↔ f ∈ names.map (·.1) ∨ f = e := by
  unfold nameEvent
  split
  · next old =>
    obtain ⟨entry, among, same⟩ := List.any_eq_true.mp old
    have member : e ∈ names.map (·.1) := List.mem_map.mpr ⟨entry, among, by simpa using same⟩
    exact ⟨.inl, fun h => h.elim id fun same => same ▸ member⟩
  · simp

theorem Sound.foldl (sound : names.Sound) (es : List Event) : (es.foldl nameEvent names).Sound := by
  induction es generalizing names with
  | nil => exact sound
  | cons e es ih => exact ih (sound.name e)

theorem mem_foldl_iff (es : List Event) :
    f ∈ (es.foldl nameEvent names).map (·.1) ↔ f ∈ names.map (·.1) ∨ f ∈ es := by
  induction es generalizing names with
  | nil => simp
  | cons e es ih => rw [List.foldl_cons, ih, mem_name_iff, List.mem_cons, or_assoc]

theorem get_mem (h : e ∈ names.map (·.1)) : (e, names.get e) ∈ names := by
  obtain ⟨entry, among, rfl⟩ := List.mem_map.mp h
  cases found : names.find? (·.1 = entry.1) with
  | none => exact absurd (List.find?_eq_none.mp found entry among) (by simp)
  | some first =>
    have same : first.1 = entry.1 := by simpa using List.find?_some found
    rw [get, found, ← same]
    exact List.mem_of_find?_eq_some found

theorem get_eq_of_mem (sound : names.Sound) {name : String} (h : (e, name) ∈ names) : names.get e = name :=
  congrArg Prod.snd (List.inj_on_of_nodup_map sound.events (get_mem (List.mem_map_of_mem h)) h rfl)

/-- The constant of an event is its identifier, or that with a number. -/
theorem get_numbered (sound : names.Sound) (h : e ∈ names.map (·.1)) : ∃ k, names.get e = numbered "_" e.ident k := by
  obtain ⟨before, after, split⟩ := List.append_of_mem (get_mem h)
  obtain ⟨k, named, -⟩ := sound.chosen before after e _ split
  exact ⟨k, named⟩

/-- Different events have different constants. -/
theorem get_inj (sound : names.Sound) (he : e ∈ names.map (·.1)) (hf : f ∈ names.map (·.1))
    (same : names.get e = names.get f) : e = f := by
  have distinct : (names.map (·.2)).Nodup := (List.nodup_append.mp sound.taken).2.1
  have entry := List.inj_on_of_nodup_map distinct (get_mem he) (get_mem hf) same
  exact congrArg Prod.fst entry

/-- No event has the constant of the start or the stop. -/
theorem get_new (sound : names.Sound) (he : e ∈ names.map (·.1)) :
    names.get e ≠ Program.startEvent ∧ names.get e ≠ Program.stopEvent := by
  have foreign := (List.nodup_append.mp sound.taken).2.2
  have member : names.get e ∈ names.map (·.2) := List.mem_map_of_mem (get_mem he)
  exact ⟨fun same => foreign _ (by simp) _ member same.symm, fun same => foreign _ (by simp) _ member same.symm⟩

end EventNames

theorem eventNames_sound (w : Workflow) : w.eventNames.Sound := EventNames.Sound.nil.foldl _

/-- The events that are named are those that steps wait for or set off. -/
theorem mem_eventNames_iff {w : Workflow} {e : Event} :
    e ∈ w.eventNames.map (·.1) ↔ ∃ s ∈ w.steps, e ∈ s.events := by
  rw [eventNames, EventNames.mem_foldl_iff, List.mem_flatMap]
  exact ⟨fun h => h.resolve_left List.not_mem_nil, .inr⟩

end Workflow
end EventFlow
