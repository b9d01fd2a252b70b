/-
  EventFlow.Dictionary — values by name.

  The names ascend by code point, each once. The order is part of the type, so two
  dictionaries with the same entries are equal and are written alike.
-/

namespace EventFlow

structure Dictionary (α : Type) where
  entries : List (String × α)
  ascending : (entries.map (·.1)).Pairwise (· < ·)
  deriving DecidableEq

namespace Dictionary

variable {α β : Type}

def empty : Dictionary α := ⟨[], .nil⟩

instance : Inhabited (Dictionary α) := ⟨empty⟩

def isEmpty (d : Dictionary α) : Bool := d.entries.isEmpty

def get? (d : Dictionary α) (key : String) : Option α :=
  (d.entries.find? (·.1 = key)).map (·.2)

def values (d : Dictionary α) : List α := d.entries.map (·.2)

/-- Puts an entry where its key belongs; an entry with that key is replaced. -/
def insertSorted (key : String) (value : α) : List (String × α) → List (String × α)
  | [] => [(key, value)]
  | (k, v) :: rest =>
    if key < k then (key, value) :: (k, v) :: rest
    else if key = k then (key, value) :: rest
    else (k, v) :: insertSorted key value rest

theorem mem_insertSorted {key : String} {value : α} {entries : List (String × α)}
    {e : String × α} (h : e ∈ insertSorted key value entries) : e = (key, value) ∨ e ∈ entries := by
  fun_induction insertSorted key value entries <;> grind

theorem insertSorted_ascending (key : String) (value : α) {entries : List (String × α)}
    (h : (entries.map (·.1)).Pairwise (· < ·)) :
    ((insertSorted key value entries).map (·.1)).Pairwise (· < ·) := by
  fun_induction insertSorted key value entries with
  | case1 => exact List.pairwise_singleton _ _
  | case2 k v rest before =>
    obtain ⟨least, _⟩ := List.pairwise_cons.mp h
    refine List.pairwise_cons.mpr ⟨fun name member => ?_, h⟩
    rcases List.mem_cons.mp member with rfl | later
    · exact before
    · exact String.lt_trans before (least name later)
  | case3 k v rest => exact h
  | case4 k v rest notBefore other ih =>
    obtain ⟨least, ascending⟩ := List.pairwise_cons.mp h
    refine List.pairwise_cons.mpr ⟨fun name member => ?_, ih ascending⟩
    obtain ⟨e, inserted, rfl⟩ := List.mem_map.mp member
    rcases mem_insertSorted inserted with rfl | old
    · exact Std.lt_of_le_of_ne (String.not_lt.mp notBefore) (Ne.symm other)
    · exact least _ (List.mem_map_of_mem old)

/-- An entry with that key is replaced. -/
def insert (d : Dictionary α) (key : String) (value : α) : Dictionary α :=
  ⟨insertSorted key value d.entries, insertSorted_ascending key value d.ascending⟩

/-- Of two entries with one key the later wins. -/
def ofEntries (entries : List (String × α)) : Dictionary α :=
  entries.foldl (fun d (key, value) => d.insert key value) empty

/-- The same names with other values. -/
def map (f : α → β) (d : Dictionary α) : Dictionary β :=
  ⟨d.entries.map fun (key, value) => (key, f value), by
    rw [List.map_map]; exact d.ascending⟩

end Dictionary
end EventFlow
