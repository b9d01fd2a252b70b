/-
  EventFlow.Proofs.Json.Values — readers of values that were written.

  The outline of a value tree has no faults, so a reader that fits the value gives it back: free-form
  values with their keys sorted, lists item by item, records field by field.

  Proved:
  - `tree_ofTree`: any value, by induction on it.
  - `list_ofTree` / `option_ofTree` / `map_ofTree`: lists, values that may be missing, maps.
  - `untagged_ofTree` / `tagged_ofTree`: choices.
  - `readFields_slot`: the next field of a record.
-/

import EventFlow.Json.Choice
import EventFlow.Proofs.Dictionary

namespace EventFlow

/-! ## Dictionaries -/

namespace Dictionary

variable {α : Type}

theorem insertSorted_last {key : String} {value : α} {entries : List (String × α)} (last : ∀ e ∈ entries, e.1 < key) :
    insertSorted key value entries = entries ++ [(key, value)] := by
  induction entries with
  | nil => rfl
  | cons e rest ih =>
    obtain ⟨k, v⟩ := e
    have before : k < key := last (k, v) List.mem_cons_self
    have other : key ≠ k := fun same => String.lt_irrefl k (same ▸ before)
    rw [insertSorted, if_neg (String.lt_asymm before), if_neg other, ih fun e h => last e (List.mem_cons_of_mem _ h)]
    rfl

theorem entries_foldl_insert (d : Dictionary α) (entries : List (String × α))
    (ascending : ((d.entries ++ entries).map (·.1)).Pairwise (· < ·)) :
    (entries.foldl (fun d (key, value) => d.insert key value) d).entries = d.entries ++ entries := by
  induction entries generalizing d with
  | nil => exact (List.append_nil _).symm
  | cons e rest ih =>
    obtain ⟨key, value⟩ := e
    have last : ∀ x ∈ d.entries, x.1 < key := by
      rw [List.map_append, List.map_cons] at ascending
      exact fun x h => (List.pairwise_append.mp ascending).2.2 _ (List.mem_map_of_mem h) _ List.mem_cons_self
    have inserted : (d.insert key value).entries = d.entries ++ [(key, value)] := insertSorted_last last
    rw [List.foldl_cons, ih (d.insert key value) (by rwa [inserted, List.append_assoc]), inserted, List.append_assoc]
    rfl

/-- A dictionary is made of its entries. -/
theorem ofEntries_entries (d : Dictionary α) : ofEntries d.entries = d := by
  have h : (ofEntries d.entries).entries = d.entries := entries_foldl_insert empty d.entries d.ascending
  cases d
  generalize ofEntries _ = made at h
  cases made
  cases h
  rfl

end Dictionary

namespace Outline

theorem ofTreeItems_eq_map (close : Close) (items : List Json) :
    ofTreeItems close items = items.map (ofTree close) := by
  induction items with
  | nil => rfl
  | cons v rest ih => rw [ofTreeItems, ih, List.map_cons]

theorem ofTreeFields_eq_map (close : Close) (fields : List (String × Json)) :
    ofTreeFields close fields = fields.map fun e => (.ok e.1, ofTree close e.2) := by
  induction fields with
  | nil => rfl
  | cons e rest ih => rw [ofTreeFields, ih, List.map_cons]

end Outline

namespace Reader

open Outline

variable {α : Type} {close : Close}

/-- A list or an object of a value tree ends. -/
def Whole (close : Close) : Prop := ∀ rest, close ≠ .cut rest

theorem whole_bracket : Whole .bracket := nofun

theorem whole_tree : Whole .tree := nofun

theorem whole_setAside : Whole .setAside := nofun

mutual

theorem tree_ofTree (whole : Whole close) : (v : Json) → tree (ofTree close v) = .ok v
  | .null => rfl
  | .bool _ => rfl
  | .num _ => rfl
  | .str _ => rfl
  | .arr items => by rw [ofTree, tree, treeItems_ofTree whole items]; rfl
  | .obj fields => by rw [ofTree, tree, treeFields_ofTree whole true fields]; rfl

theorem treeItems_ofTree (whole : Whole close) : (items : List Json) →
    treeItems (ofTreeItems close items) close = .ok items
  | [] => by
    cases close with
    | cut rest => exact absurd rfl (whole rest)
    | _ => rfl
  | v :: rest => by
    rw [ofTreeItems, treeItems, tree_ofTree whole v, treeItems_ofTree whole rest]
    rfl

theorem treeFields_ofTree (whole : Whole close) (first : Bool) : (fields : List (String × Json)) →
    treeFields first (ofTreeFields close fields) .bracket = .ok fields
  | [] => rfl
  | (k, v) :: rest => by
    rw [ofTreeFields, treeFields, tree_ofTree whole v, treeFields_ofTree whole false rest]
    rfl

end

theorem json_ofTree (whole : Whole close) (v : Json) : json (ofTree close v) = .ok v.sorted := by
  rw [json, tree_ofTree whole]
  rfl

theorem setAside_ofTree (whole : Whole close) (v : Json) : setAside (ofTree close v) = .ok (ofTree .setAside v) := by
  rw [setAside, tree_ofTree whole]
  rfl

mutual

theorem skipFault?_ofTree (whole : Whole close) : (v : Json) → skipFault? (ofTree close v) = none
  | .null | .bool _ | .num _ | .str _ => by simp only [ofTree, skipFault?]
  | .arr items => by
    rw [ofTree, skipFault?, skipFaultItems?_ofTree whole items]
    exact whole
  | .obj fields => by
    rw [ofTree, skipFault?, skipFaultFields?_ofTree whole fields]
    exact whole_bracket

theorem skipFaultItems?_ofTree (whole : Whole close) : (items : List Json) →
    skipFaultItems? (ofTreeItems close items) = none
  | [] => by rw [ofTreeItems, skipFaultItems?]
  | v :: rest => by
    rw [ofTreeItems, skipFaultItems?, skipFault?_ofTree whole v]
    exact skipFaultItems?_ofTree whole rest

theorem skipFaultFields?_ofTree (whole : Whole close) : (fields : List (String × Json)) →
    skipFaultFields? (ofTreeFields close fields) = none
  | [] => by rw [ofTreeFields, skipFaultFields?]
  | (k, v) :: rest => by
    rw [ofTreeFields, skipFaultFields?, skipFault?_ofTree whole v]
    exact skipFaultFields?_ofTree whole rest

end

/-! ## Choices -/

/-- The first alternative that fits a value tree. -/
theorem untagged_ofTree {alternatives : List (Reader α)} {title : String} (whole : Whole close) {v : Json} {a : α}
    (fits : alternatives.findSome? (fun read => (read (ofTree .setAside v)).toOption) = some a) :
    untagged title alternatives (ofTree close v) = .ok a := by
  rw [untagged, setAside_ofTree whole]
  simp only [bind, Except.bind, fits]
  rfl

/-- Without the tag the fields of an object are set aside as they are. -/
theorem splitTag_others (whole : Whole close) {tag : String} {alts : Alternatives α} {first : Bool}
    {fields : List (String × Json)} {found : Option (Reader α)} (others : ∀ e ∈ fields, e.1 ≠ tag) :
    splitTag tag alts first (ofTreeFields close fields) .bracket found =
      .ok (found, ofTreeFields .setAside fields) := by
  induction fields generalizing first with
  | nil => rfl
  | cons e rest ih =>
    obtain ⟨other, others⟩ := List.forall_mem_cons.mp others
    rw [ofTreeFields, splitTag, key]
    simp only [bind, Except.bind, if_neg other, setAside_ofTree whole, ih others]
    rfl

/-- The tag may stand anywhere; its alternative reads the other fields. -/
theorem tagged_ofTree (whole : Whole close) {title tag name : String} {alts : Alternatives α} {read : Reader α}
    {before after : List (String × Json)} (others : ∀ e ∈ before ++ after, e.1 ≠ tag)
    (chosen : alts.get name = .ok read) :
    tagged title tag alts (ofTree close (.obj (before ++ (tag, .str name) :: after))) =
      read (ofTree .setAside (.obj (before ++ after))) := by
  have split (first : Bool) :
      splitTag tag alts first (ofTreeFields close (before ++ (tag, .str name) :: after)) .bracket none =
        .ok (some read, ofTreeFields .setAside (before ++ after)) := by
    induction before generalizing first with
    | nil =>
      rw [List.nil_append, ofTreeFields, splitTag, key]
      simp only [bind, Except.bind, if_pos, ofTree, Alternatives.ofTag, chosen]
      exact splitTag_others whole others
    | cons e rest ih =>
      obtain ⟨other, others⟩ := List.forall_mem_cons.mp others
      rw [List.cons_append, ofTreeFields, splitTag, key]
      simp only [bind, Except.bind, if_neg other, setAside_ofTree whole, ih others]
      rfl
  rw [ofTree, tagged, if_neg Bool.false_ne_true, split]
  rfl

/-! ## Lists, options and maps -/

theorem list_ofTree (whole : Whole close) {read : Reader α} {write : α → Json} {as : List α}
    (h : ∀ a ∈ as, read (ofTree close (write a)) = .ok a) :
    list read (ofTree close (.arr (as.map write))) = .ok as := by
  rw [ofTree, list, if_neg Bool.false_ne_true]
  induction as with
  | nil =>
    cases close with
    | cut rest => exact absurd rfl (whole rest)
    | _ => rfl
  | cons a as ih =>
    rw [List.map_cons, ofTreeItems, readItems, h a List.mem_cons_self,
      ih fun b member => h b (List.mem_cons_of_mem _ member)]
    rfl

/-- A value that may be missing is written as null, so what is there must not be. -/
theorem option_ofTree {read : Reader α} {write : α → Json} {o : Option α}
    (h : ∀ a ∈ o, write a ≠ .null ∧ read (ofTree close (write a)) = .ok a) :
    option read (ofTree close (.ofOption write o)) = .ok o := by
  cases o with
  | none => rfl
  | some a =>
    obtain ⟨some, reads⟩ := h a rfl
    have outline : ofTree close (write a) ≠ .null := by
      cases hv : write a with
      | null => exact absurd hv some
      | _ => nofun
    rw [Json.ofOption, option]
    · rw [reads]; rfl
    · exact outline

theorem map_ofTree {read : Reader α} {write : α → Json} {d : Dictionary α}
    (h : ∀ a ∈ d.values, read (ofTree close (write a)) = .ok a) :
    map read (ofTree close (.ofDictionary (d.map write))) = .ok d := by
  have entries (first : Bool) (es : List (String × α)) (h : ∀ e ∈ es, read (ofTree close (write e.2)) = .ok e.2) :
      readEntries read first (ofTreeFields close (es.map fun (k, a) => (k, write a))) .bracket = .ok es := by
    induction es generalizing first with
    | nil => rfl
    | cons e es ih =>
      rw [List.map_cons, ofTreeFields, readEntries, h e List.mem_cons_self,
        ih false fun x member => h x (List.mem_cons_of_mem _ member)]
      rfl
  have all := entries true d.entries fun e member => h e.2 (List.mem_map_of_mem member)
  rw [Json.ofDictionary, ofTree, map, if_neg Bool.false_ne_true, Dictionary.map, all]
  exact congrArg Except.ok d.ofEntries_entries

end Reader

/-! ## Records -/

namespace Shape

variable {σ α : Type}

theorem store_of {read : Reader α} {v : Outline} {a : α} (reads : read v = .ok a) (name : String) (need : Need)
    (put : α → σ → σ) (aliases : List String) (acc : σ) :
    (Slot.of name need read put aliases).store v acc = .ok (put a acc) := congrArg (Except.map (put · acc)) reads

/-- A field that the record knows goes to its place. -/
theorem readFields_slot {slots : List (Slot σ)} {slot : Slot σ} {first : Bool} {name : String} {v : Outline}
    {rest : List (Key × Outline)} {close : Close} {seen : List String} {acc acc' : σ}
    (known : slot? slots name = some slot) (unseen : seen.contains slot.name = false)
    (stores : slot.store v acc = .ok acc') :
    readFields slots first ((.ok name, v) :: rest) close seen acc =
      readFields slots false rest close (slot.name :: seen) acc' := by
  rw [readFields, Reader.key]
  simp only [bind, Except.bind, known, unseen, Bool.false_eq_true, if_false, stores]

end Shape
end EventFlow
