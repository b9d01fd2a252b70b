/-
  EventFlow.Proofs.Json.Depth — a value that nests too deep is not read.

  The scanner marks the lists and objects that stand in too many others (`Outline.ofTreeIn`), and a
  reader stops at the first mark it comes to. A reader of free-form values comes to all of them, so
  what it takes nests no deeper than it follows.

  Proved:
  - `depth_of_tree`: a value that is read in full, by induction on it.
  - `depth_of_map`: a map of free-form values.
  - `Shape.reads_of_read`: a record that is read from an object has read each field that it knows.
-/

import EventFlow.Proofs.Json.Record

namespace EventFlow

namespace Reader

open Outline

variable {ε α β : Type}

theorem bind_ok {x : Except ε α} {f : α → Except ε β} {b : β} (h : x >>= f = .ok b) :
    ∃ a, x = .ok a ∧ f a = .ok b := by
  cases x with
  | error e => cases h
  | ok a => exact ⟨a, rfl, h⟩

theorem map_ok {x : Except ε α} {f : α → β} {b : β} (h : x.map f = .ok b) : ∃ a, x = .ok a ∧ f a = b := by
  cases x with
  | error e => cases h
  | ok a => exact ⟨a, rfl, Except.ok.inj h⟩

/-! ## Values in full -/

/-- A list that is read is not marked, and its items are read. -/
theorem tree_arr {deep : Bool} {items : List Outline} {close : Close} {w : Json}
    (h : tree (.arr deep items close) = .ok w) : deep = false ∧ ∃ ws, treeItems items close = .ok ws ∧ .arr ws = w := by
  cases deep with
  | true => cases h
  | false =>
    rw [tree] at h
    exact ⟨rfl, map_ok h⟩

theorem tree_obj {deep : Bool} {fields : List (Key × Outline)} {close : Close} {w : Json}
    (h : tree (.obj deep fields close) = .ok w) :
    deep = false ∧ ∃ es, treeFields true fields close = .ok es ∧ .obj es = w := by
  cases deep with
  | true => cases h
  | false =>
    rw [tree] at h
    exact ⟨rfl, map_ok h⟩

mutual

theorem depth_of_tree : (v : Json) → ∀ {depth : Nat} {w : Json}, depth ≤ depthLimit →
    tree (ofTreeIn depth v) = .ok w → depth + v.depth ≤ depthLimit
  | .null, _, _, shallow, _ | .bool _, _, _, shallow, _ | .num _, _, _, shallow, _ | .str _, _, _, shallow, _ => shallow
  | .arr items, depth, _, _, reads => by
    obtain ⟨unmarked, ws, reads, -⟩ := tree_arr reads
    have inner := depth_of_treeItems items (Nat.not_lt.mp (of_decide_eq_false unmarked)) reads
    rw [Json.depth]
    omega
  | .obj fields, depth, _, _, reads => by
    obtain ⟨unmarked, ws, reads, -⟩ := tree_obj reads
    have inner := depth_of_treeFields fields (Nat.not_lt.mp (of_decide_eq_false unmarked)) reads
    rw [Json.depth]
    omega

theorem depth_of_treeItems : (items : List Json) → ∀ {depth : Nat} {ws : List Json}, depth ≤ depthLimit →
    treeItems (ofTreeItemsIn depth items) .bracket = .ok ws → depth + Json.depthItems items ≤ depthLimit
  | [], _, _, shallow, _ => shallow
  | v :: rest, depth, _, shallow, reads => by
    rw [ofTreeItemsIn, treeItems] at reads
    obtain ⟨w, first, reads⟩ := bind_ok reads
    obtain ⟨ws, others, -⟩ := bind_ok reads
    have head := depth_of_tree v shallow first
    have tail := depth_of_treeItems rest shallow others
    rw [Json.depthItems]
    omega

theorem depth_of_treeFields : (fields : List (String × Json)) → ∀ {first : Bool} {depth : Nat}
    {ws : List (String × Json)}, depth ≤ depthLimit →
    treeFields first (ofTreeFieldsIn depth fields) .bracket = .ok ws → depth + Json.depthFields fields ≤ depthLimit
  | [], _, _, _, shallow, _ => shallow
  | (k, v) :: rest, _, depth, _, shallow, reads => by
    rw [ofTreeFieldsIn, treeFields] at reads
    obtain ⟨_, -, reads⟩ := bind_ok reads
    obtain ⟨w, first, reads⟩ := bind_ok reads
    obtain ⟨ws, others, -⟩ := bind_ok reads
    have head := depth_of_tree v shallow first
    have tail := depth_of_treeFields rest shallow others
    rw [Json.depthFields]
    omega

end

/-! ## Maps -/

theorem depth_of_readEntries {fields : List (String × Json)} {first : Bool} {depth : Nat} {es : List (String × Json)}
    (shallow : depth ≤ depthLimit) (reads : readEntries json first (ofTreeFieldsIn depth fields) .bracket = .ok es) :
    depth + Json.depthFields fields ≤ depthLimit := by
  induction fields generalizing first es with
  | nil => exact shallow
  | cons e rest ih =>
    rw [ofTreeFieldsIn, readEntries] at reads
    obtain ⟨_, -, reads⟩ := bind_ok reads
    obtain ⟨w, first, reads⟩ := bind_ok reads
    obtain ⟨ws, others, -⟩ := bind_ok reads
    obtain ⟨t, first, -⟩ := map_ok first
    have head := depth_of_tree e.2 shallow first
    have tail := ih others
    rw [Json.depthFields]
    omega

theorem depth_of_map {fields : List (String × Json)} {depth : Nat} {d : Dictionary Json}
    (reads : map json (ofTreeIn depth (.obj fields)) = .ok d) : depth + (Json.obj fields).depth ≤ depthLimit := by
  rw [ofTreeIn, map] at reads
  split at reads
  · cases reads
  · next unmarked =>
    obtain ⟨es, reads, -⟩ := map_ok reads
    rw [decide_eq_true_eq, Nat.not_lt] at unmarked
    have inner := depth_of_readEntries unmarked reads
    rw [Json.depth]
    omega

end Reader

/-! ## Records -/

namespace Shape

variable {σ α : Type} {slots : List (Slot σ)}

theorem stores_of_readFields {fields : List (Key × Outline)} {close : Close} {first : Bool} {seen : List String}
    {acc : σ} {r : List String × σ} (reads : readFields slots first fields close seen acc = .ok r) {name : String}
    {v : Outline} (member : (.ok name, v) ∈ fields) {slot : Slot σ} (known : slot? slots name = some slot) :
    ∃ before after, slot.store v before = .ok after := by
  induction fields generalizing first seen acc with
  | nil => cases member
  | cons e rest ih =>
    obtain ⟨s, takes, reads⟩ := readFields_cons.mp reads
    rcases List.mem_cons.mp member with rfl | member
    · cases takes with
      | skip unknown passes => rw [known] at unknown; cases unknown
      | store known' fresh stores =>
        cases Option.some.inj (known.symm.trans known')
        exact ⟨_, _, stores⟩
    · exact ih reads member

theorem reads_of_read {shape : Shape σ} {blank s : σ} {deep : Bool} {fields : List (Key × Outline)} {close : Close}
    (reads : shape.read blank (.obj deep fields close) = .ok s) {name : String} {v : Outline}
    (member : (.ok name, v) ∈ fields) {need : Need} {read : Reader α} {put : α → σ → σ} {aliases : List String}
    (known : slot? shape.slots name = some (.of name need read put aliases)) : ∃ a, read v = .ok a := by
  rw [Shape.read] at reads
  split at reads
  · cases reads
  · obtain ⟨r, reads, -⟩ := Reader.bind_ok reads
    obtain ⟨before, after, stores⟩ := stores_of_readFields reads member known
    obtain ⟨a, reads, -⟩ := Reader.map_ok stores
    exact ⟨a, reads⟩

end Shape
end EventFlow
