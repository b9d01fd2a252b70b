/-
  EventFlow.Proofs.Json.Sorted — values with their keys sorted.

  A value tree that is passed on whole has the keys of its objects sorted. If no key comes twice, that
  only changes the order of the entries (`ofEntries_perm`), and sorting again changes nothing
  (`sorted_sorted`). `Json.Readable n` says of a value that its text is read back: its numbers are, and
  it nests in at most `n` lists and objects.

  Proved:
  - `sorted_sorted`: sorting keys twice is sorting them once.
  - `Readable.sorted`: a sorted value is read back if the value is.
  - `ofText_pretty` / `ofText_compact`: the text of a readable value, read by any reader that takes the
    value.
-/

import EventFlow.Proofs.Json.Layout
import EventFlow.Proofs.Json.Values

namespace EventFlow

namespace Dictionary

variable {α : Type}

theorem insertSorted_perm {key : String} {value : α} {entries : List (String × α)} (new : key ∉ entries.map (·.1)) :
    (insertSorted key value entries).Perm ((key, value) :: entries) := by
  induction entries with
  | nil => exact .rfl
  | cons e rest ih =>
    obtain ⟨k, v⟩ := e
    rw [List.map_cons, List.mem_cons, not_or] at new
    rw [insertSorted]
    split
    · exact .rfl
    · rw [if_neg new.1]
      exact ((ih new.2).cons _).trans (.swap ..)

theorem foldl_insert_perm {entries : List (String × α)} {d : Dictionary α}
    (nodup : ((d.entries ++ entries).map (·.1)).Nodup) :
    (entries.foldl (fun d (key, value) => d.insert key value) d).entries.Perm (d.entries ++ entries) := by
  induction entries generalizing d with
  | nil => rw [List.append_nil]; exact .rfl
  | cons e rest ih =>
    obtain ⟨key, value⟩ := e
    have new : key ∉ d.entries.map (·.1) := by
      rw [List.map_append, List.map_cons] at nodup
      intro old
      exact (List.nodup_append.mp nodup).2.2 key old key List.mem_cons_self rfl
    have inserted : (d.insert key value).entries.Perm ((key, value) :: d.entries) := insertSorted_perm new
    have moved : ((d.insert key value).entries ++ rest).Perm (d.entries ++ (key, value) :: rest) :=
      (inserted.append_right rest).trans List.perm_middle.symm
    exact (ih ((moved.map (·.1)).nodup_iff.mpr nodup)).trans moved

/-- Entries without a repeated key are the entries of their dictionary, in another order. -/
theorem ofEntries_perm {entries : List (String × α)} (nodup : (entries.map (·.1)).Nodup) :
    (ofEntries entries).entries.Perm entries := foldl_insert_perm nodup

end Dictionary

namespace Json

theorem sortedItems_eq_map (items : List Json) : sortedItems items = items.map sorted := by
  induction items with
  | nil => rfl
  | cons v rest ih => rw [sortedItems, ih, List.map_cons]

theorem sortedEntries_eq_map (fields : List (String × Json)) :
    sortedEntries fields = fields.map fun (k, v) => (k, v.sorted) := by
  induction fields with
  | nil => rfl
  | cons e rest ih => rw [sortedEntries, ih, List.map_cons]

theorem keys_sortedEntries (fields : List (String × Json)) : (sortedEntries fields).map (·.1) = fields.map (·.1) := by
  rw [sortedEntries_eq_map, List.map_map]
  rfl

/-- A dictionary of sorted values is sorted. -/
theorem sorted_ofDictionary {d : Dictionary Json} (sorted : ∀ e ∈ d.entries, e.2.sorted = e.2) :
    (ofDictionary d).sorted = ofDictionary d := by
  have same : sortedEntries d.entries = d.entries := by
    rw [sortedEntries_eq_map]
    refine (List.map_congr_left ?_).trans (List.map_id _)
    intro e member
    exact Prod.ext rfl (sorted e member)
  rw [ofDictionary, Json.sorted, same, Dictionary.ofEntries_entries]
  rfl

mutual

theorem sorted_sorted : (v : Json) → v.sorted.sorted = v.sorted
  | .null | .bool _ | .num _ | .str _ => rfl
  | .arr items => by rw [sorted, sorted, sortedItems_sortedItems items]
  | .obj fields => by
    rw [sorted]
    exact sorted_ofDictionary fun e member => sorted_sortedEntries fields e (Dictionary.mem_ofEntries member)

theorem sortedItems_sortedItems : (items : List Json) → sortedItems (sortedItems items) = sortedItems items
  | [] => rfl
  | v :: rest => by rw [sortedItems, sortedItems, sorted_sorted v, sortedItems_sortedItems rest]

theorem sorted_sortedEntries : (fields : List (String × Json)) → ∀ e ∈ sortedEntries fields, e.2.sorted = e.2
  | [] => nofun
  | (k, v) :: rest => by
    intro e member
    rcases List.mem_cons.mp member with rfl | member
    · exact sorted_sorted v
    · exact sorted_sortedEntries rest e member

end

/-! ## Values whose text is read back -/

inductive Readable : Nat → Json → Prop
  | null {n : Nat} : Readable n .null
  | bool {n : Nat} (b : Bool) : Readable n (.bool b)
  | num {n : Nat} {x : JsonNumber} (reads : x.ReadsBack) : Readable n (.num x)
  | str {n : Nat} (s : String) : Readable n (.str s)
  | arr {n : Nat} {items : List Json} (each : ∀ v ∈ items, Readable n v) : Readable (n + 1) (.arr items)
  | obj {n : Nat} {fields : List (String × Json)} (each : ∀ e ∈ fields, Readable n e.2) : Readable (n + 1) (.obj fields)

namespace Readable

variable {n : Nat} {v : Json}

theorem legible (h : v.Readable n) : v.Legible := by
  induction h with
  | null => exact .null
  | bool b => exact .bool b
  | num reads => exact .num reads
  | str s => exact .str s
  | arr _ ih => exact .arr ih
  | obj _ ih => exact .obj ih

theorem depth_le (h : v.Readable n) : v.depth ≤ n := by
  induction h with
  | null | bool | num | str => exact Nat.zero_le _
  | arr _ ih => exact Nat.succ_le_succ (depthItems_le ih)
  | obj _ ih => exact Nat.succ_le_succ (depthFields_le ih)

theorem sorted (h : v.Readable n) : v.sorted.Readable n := by
  induction h with
  | null => exact .null
  | bool b => exact .bool b
  | num reads => exact .num reads
  | str s => exact .str s
  | arr _ ih =>
    rw [Json.sorted, sortedItems_eq_map]
    refine .arr fun w member => ?_
    obtain ⟨v, among, rfl⟩ := List.mem_map.mp member
    exact ih v among
  | obj _ ih =>
    rw [Json.sorted, sortedEntries_eq_map]
    refine .obj fun e member => ?_
    obtain ⟨f, among, rfl⟩ := List.mem_map.mp (Dictionary.mem_ofEntries member)
    exact ih f among

end Readable
end Json

open Outline in
/-- The text of a value over lines, with blanks behind it. -/
theorem Reader.ofText_pretty {α : Type} {read : Reader α} {v : Json} {a : α} (readable : v.Readable depthLimit)
    (reads : read (ofTree .bracket v) = .ok a) {blanks : List Char} (blank : ∀ c ∈ blanks, isSpace c = true) :
    Reader.ofText read (String.ofList (v.pretty.toList ++ blanks)) = .ok a := by
  have stops : Stops blanks := by
    have ends : Stops (blanks ++ []) := stops_blanks blank nofun
    rwa [List.append_nil] at ends
  have nothing : skipSpace blanks = [] := List.dropWhile_eq_nil_iff.mpr blank
  rw [Reader.ofText, String.toList_ofList, scan_pretty readable.legible stops,
    ofTreeIn_zero readable.depth_le]
  simp only [reads, nothing]
  rfl

open Outline in
theorem Reader.ofText_compact {α : Type} {read : Reader α} {v : Json} {a : α} (readable : v.Readable depthLimit)
    (reads : read (ofTree .bracket v) = .ok a) : Reader.ofText read v.compact = .ok a := by
  rw [Reader.ofText, scan_compact readable.legible, ofTreeIn_zero readable.depth_le]
  simp only [reads]
  rfl

end EventFlow
