/-
  EventFlow.Proofs.Dictionary — looking up what was put into a dictionary.

  - `get?_insert`: an entry changes what its own key gives and nothing else.
  - `mem_ofEntries`: a dictionary made from a list holds only entries of the list.
-/

import EventFlow.Dictionary

namespace EventFlow.Dictionary

variable {α : Type}

theorem find?_insertSorted (key : String) (value : α) (k : String) (entries : List (String × α)) :
    ((insertSorted key value entries).find? (·.1 = k)).map (·.2) =
      if k = key then some value else (entries.find? (·.1 = k)).map (·.2) := by
  induction entries with
  | nil => by_cases h : k = key <;> simp [insertSorted, h, eq_comm]
  | cons e rest ih =>
    obtain ⟨k', v'⟩ := e
    simp only [insertSorted]
    split
    · by_cases h : k = key <;> simp [List.find?_cons, h, eq_comm]
    · split
      · rename_i same
        by_cases h : k = key
        · simp [h]
        · simp [h, Ne.symm h, same ▸ Ne.symm h]
      · rename_i other
        by_cases h : k' = k
        · have hk : k ≠ key := fun e => other (e ▸ h.symm)
          simp [h, hk]
        · simpa [List.find?_cons, h] using ih

theorem get?_insert (d : Dictionary α) (key : String) (value : α) (k : String) :
    (d.insert key value).get? k = if k = key then some value else d.get? k :=
  find?_insertSorted key value k d.entries

@[simp] theorem get?_insert_self (d : Dictionary α) (key : String) (value : α) :
    (d.insert key value).get? key = some value := by
  rw [get?_insert, if_pos rfl]

theorem isSome_get?_insert {d : Dictionary α} {k : String} (h : (d.get? k).isSome) (key : String)
    (value : α) : ((d.insert key value).get? k).isSome := by
  rw [get?_insert]
  split
  · rfl
  · exact h

theorem mem_values_of_get? {d : Dictionary α} {key : String} {value : α} (h : d.get? key = some value) :
    value ∈ d.values := by
  obtain ⟨e, he, rfl⟩ := Option.map_eq_some_iff.mp h
  exact List.mem_map_of_mem (List.mem_of_find?_eq_some he)

theorem mem_foldl_insert {e : String × α} {entries : List (String × α)} {d : Dictionary α}
    (h : e ∈ (entries.foldl (fun d (key, value) => d.insert key value) d).entries) :
    e ∈ d.entries ∨ e ∈ entries := by
  induction entries generalizing d with
  | nil => exact Or.inl h
  | cons x rest ih =>
    rcases ih h with h | h
    · rcases mem_insertSorted h with rfl | h
      · exact Or.inr List.mem_cons_self
      · exact Or.inl h
    · exact Or.inr (List.mem_cons_of_mem _ h)

theorem mem_ofEntries {e : String × α} {entries : List (String × α)} (h : e ∈ (ofEntries entries).entries) :
    e ∈ entries := by
  rcases mem_foldl_insert h with h | h
  · cases h
  · exact h

end EventFlow.Dictionary
