/-
  EventFlow.Proofs.Json.Record — records are read as they were written.

  A record is written field by field in the order of its shape, and a field that may be missing can be
  left out (`Shape.Writes`). It is read back from the entries as they were written and from the entries
  sorted by key: what a record reads does not depend on the order of its entries, as long as no two
  fields share a name or store into the same place (`Shape.Orderly`).

  `Reader.Recovers read n v a` collects what is known of a value `v` that was written for `a`: the reader
  gives `a` for `v` and for `v` with its keys sorted, and the text of `v` is read back.

  Proved:
  - `readFields_perm`: the order of the entries does not matter.
  - `Writes.reads`: the entries in the order of the shape.
  - `Shape.recovers` / `recovers_beside`: a record, by one case for each of its fields.
  - `Recovers.list` / `option` / `map` and the like: the values that records are made of.
-/

import EventFlow.Proofs.Json.Sorted
import Mathlib.Data.List.Pairwise

namespace EventFlow

/-! ## The order of the entries -/

namespace Slot

variable {σ α β : Type}

def names (s : Slot σ) : List String := s.name :: s.aliases

/-- Storing one field and then the other ends the same as storing them the other way around. -/
def Apart (s t : Slot σ) : Prop :=
  ∀ v w a c, (s.store v a >>= t.store w) = .ok c ↔ (t.store w a >>= s.store v) = .ok c

instance : Std.Symm (@Apart σ) := ⟨fun _ _ h v w a c => (h w v a c).symm⟩

/-- Two fields that are put into different places. -/
theorem apart_of {name name' : String} {need need' : Need} {read : Reader α} {read' : Reader β} {put : α → σ → σ}
    {put' : β → σ → σ} {aliases aliases' : List String} (commute : ∀ x y s, put' y (put x s) = put x (put' y s)) :
    (Slot.of name need read put aliases).Apart (Slot.of name' need' read' put' aliases') := by
  intro v w a c
  show ((read v).map (put · a) >>= fun b => (read' w).map (put' · b)) = .ok c ↔
    ((read' w).map (put' · a) >>= fun b => (read v).map (put · b)) = .ok c
  cases read v with
  | error f => cases read' w <;> exact ⟨nofun, nofun⟩
  | ok x =>
    cases read' w with
    | error f => exact ⟨nofun, nofun⟩
    | ok y =>
      show Except.ok (put' y (put x a)) = _ ↔ Except.ok (put x (put' y a)) = _
      rw [commute]

end Slot

namespace Shape

variable {σ α β : Type} {slots : List (Slot σ)}

structure Orderly (slots : List (Slot σ)) : Prop where
  names : (slots.flatMap Slot.names).Nodup
  apart : slots.Pairwise Slot.Apart

theorem Orderly.slot? (orderly : Orderly slots) : ∀ s ∈ slots, Shape.slot? slots s.name = some s := by
  obtain ⟨names, -⟩ := orderly
  induction slots with
  | nil => exact nofun
  | cons t rest ih =>
    rw [List.flatMap_cons, List.nodup_append] at names
    obtain ⟨-, others, disjoint⟩ := names
    intro s member
    rw [Shape.slot?, List.find?_cons]
    rcases List.mem_cons.mp member with rfl | member
    · simp
    · have among : s.name ∈ rest.flatMap Slot.names := List.mem_flatMap.mpr ⟨s, member, List.mem_cons_self⟩
      have foreign : s.name ∉ t.names := fun own => disjoint _ own _ among rfl
      rw [Slot.names, List.mem_cons, not_or] at foreign
      rw [decide_eq_false (Ne.symm foreign.1), Bool.false_or, List.contains_eq_mem, decide_eq_false foreign.2]
      exact ih others s member

theorem Orderly.nodup (orderly : Orderly slots) : (slots.map (·.name)).Nodup := by
  refine orderly.names.sublist ?_
  have shorter (slots : List (Slot σ)) : (slots.map (·.name)).Sublist (slots.flatMap Slot.names) := by
    induction slots with
    | nil => exact .slnil
    | cons s rest ih =>
      rw [List.map_cons, List.flatMap_cons]
      exact (ih.trans (List.sublist_append_right s.aliases _)).cons_cons s.name
  exact shorter slots

/-- What reading one entry does to the names met so far and to the record. -/
inductive Takes (slots : List (Slot σ)) : Key × Outline → List String × σ → List String × σ → Prop
  | skip {name : String} {v : Outline} {seen : List String} {acc : σ} (unknown : slot? slots name = none)
      (passes : Outline.skipFault? v = none) : Takes slots (.ok name, v) (seen, acc) (seen, acc)
  | store {name : String} {slot : Slot σ} {v : Outline} {seen : List String} {acc acc' : σ}
      (known : slot? slots name = some slot) (fresh : slot.name ∉ seen) (stores : slot.store v acc = .ok acc') :
      Takes slots (.ok name, v) (seen, acc) (slot.name :: seen, acc')

theorem readFields_cons {e : Key × Outline} {rest : List (Key × Outline)} {close : Close} {first : Bool}
    {seen : List String} {acc : σ} {r : List String × σ} :
    readFields slots first (e :: rest) close seen acc = .ok r ↔
      ∃ s, Takes slots e (seen, acc) s ∧ readFields slots false rest close s.1 s.2 = .ok r := by
  obtain ⟨k, v⟩ := e
  rw [readFields]
  constructor
  · intro h
    cases k with
    | error f => cases h
    | ok name =>
      simp only [Reader.key, bind, Except.bind] at h
      split at h
      · next unknown =>
        split at h
        · cases h
        · next passes => exact ⟨_, .skip unknown passes, h⟩
      · next slot known =>
        split at h
        · cases h
        · next fresh =>
          split at h
          · cases h
          · next acc' stores =>
            rw [List.contains_eq_mem, decide_eq_true_eq] at fresh
            exact ⟨_, .store known fresh stores, h⟩
  · rintro ⟨s, takes, h⟩
    cases takes with
    | skip unknown passes =>
      simp only [Reader.key, bind, Except.bind, unknown, passes]
      exact h
    | store known fresh stores =>
      rw [← decide_eq_true_eq (p := _ ∈ seen), ← List.contains_eq_mem, Bool.not_eq_true] at fresh
      simp only [Reader.key, bind, Except.bind, known, fresh, Bool.false_eq_true, if_false, stores]
      exact h

/-- Two entries may change places. -/
theorem Takes.swap (orderly : Orderly slots) {e f : Key × Outline} {seen also : List String} {acc : σ}
    {s t : List String × σ} (first : Takes slots e (seen, acc) s) (second : Takes slots f s t) (same : seen.Perm also) :
    ∃ s' t', Takes slots f (also, acc) s' ∧ Takes slots e s' t' ∧ t.1.Perm t'.1 ∧ t'.2 = t.2 := by
  cases first with
  | skip unknown passes =>
    cases second with
    | skip unknown' passes' => exact ⟨_, _, .skip unknown' passes', .skip unknown passes, same, rfl⟩
    | store known fresh stores =>
      rw [same.mem_iff] at fresh
      exact ⟨_, _, .store known fresh stores, .skip unknown passes, same.cons _, rfl⟩
  | @store _ slot v _ _ _ known fresh stores =>
    rw [same.mem_iff] at fresh
    cases second with
    | skip unknown passes => exact ⟨_, _, .skip unknown passes, .store known fresh stores, same.cons _, rfl⟩
    | @store _ slot' w _ _ _ known' fresh' stores' =>
      rw [List.mem_cons, not_or, same.mem_iff] at fresh'
      have apart : slot.Apart slot' := by
        refine orderly.apart.forall (List.mem_of_find?_eq_some known) (List.mem_of_find?_eq_some known') ?_
        rintro rfl
        exact fresh'.1 rfl
      have both := (apart v w acc _).mp (by rw [stores]; exact stores')
      cases stored : slot'.store w acc with
      | error f => rw [stored] at both; cases both
      | ok b =>
        rw [stored] at both
        refine ⟨_, _, .store known' fresh'.2 stored, .store known ?_ both, ?_, rfl⟩
        · rw [List.mem_cons, not_or]
          exact ⟨Ne.symm fresh'.1, fresh⟩
        · exact ((same.cons _).cons _).trans (.swap ..)

theorem readFields_nil {close : Close} (whole : Reader.Whole close) (first : Bool) (seen : List String) (acc : σ) :
    readFields slots first [] close seen acc = .ok (seen, acc) := by
  cases close with
  | cut rest => exact absurd rfl (whole rest)
  | _ => rfl

theorem Takes.congr {e : Key × Outline} {seen also : List String} {acc : σ} {s : List String × σ}
    (h : Takes slots e (seen, acc) s) (same : seen.Perm also) :
    ∃ s', Takes slots e (also, acc) s' ∧ s.1.Perm s'.1 ∧ s'.2 = s.2 := by
  cases h with
  | skip unknown passes => exact ⟨_, .skip unknown passes, same, rfl⟩
  | store known fresh stores => exact ⟨_, .store known (same.mem_iff.not.mp fresh) stores, same.cons _, rfl⟩

/-- The names met so far count as a set. -/
theorem readFields_congr {close : Close} (whole : Reader.Whole close) {es : List (Key × Outline)} {first : Bool}
    (first' : Bool) {seen also seen' : List String} {acc acc' : σ} (h : readFields slots first es close seen acc = .ok (seen', acc'))
    (same : seen.Perm also) : ∃ also', readFields slots first' es close also acc = .ok (also', acc') ∧ seen'.Perm also' := by
  induction es generalizing first first' seen also acc with
  | nil =>
    rw [readFields_nil whole] at h ⊢
    cases h
    exact ⟨also, rfl, same⟩
  | cons e rest ih =>
    obtain ⟨s, takes, h⟩ := readFields_cons.mp h
    obtain ⟨s', takes', same', acc⟩ := takes.congr same
    obtain ⟨also', read, same''⟩ := ih false h same'
    exact ⟨also', readFields_cons.mpr ⟨s', takes', acc ▸ read⟩, same''⟩

/-- What a record reads does not depend on the order of its entries. -/
theorem readFields_perm (orderly : Orderly slots) {close : Close} (whole : Reader.Whole close)
    {es fs : List (Key × Outline)} (perm : es.Perm fs) {first : Bool} (first' : Bool) {seen also seen' : List String}
    {acc acc' : σ}
    (h : readFields slots first es close seen acc = .ok (seen', acc')) (same : seen.Perm also) :
    ∃ also', readFields slots first' fs close also acc = .ok (also', acc') ∧ seen'.Perm also' := by
  induction perm generalizing first first' seen also seen' acc acc' with
  | nil =>
    rw [readFields_nil whole] at h ⊢
    cases h
    exact ⟨also, rfl, same⟩
  | cons e _ ih =>
    obtain ⟨s, takes, rest⟩ := readFields_cons.mp h
    obtain ⟨s', takes', same', acc⟩ := takes.congr same
    obtain ⟨also', read, same''⟩ := ih false rest same'
    exact ⟨also', readFields_cons.mpr ⟨s', takes', acc ▸ read⟩, same''⟩
  | swap e f rest =>
    obtain ⟨s, takes, h⟩ := readFields_cons.mp h
    obtain ⟨t, takes', h⟩ := readFields_cons.mp h
    obtain ⟨s', t', swapped, swapped', same', acc⟩ := takes.swap orderly takes' same
    obtain ⟨also', read, same''⟩ := readFields_congr whole false h same'
    exact ⟨also', readFields_cons.mpr ⟨s', swapped, readFields_cons.mpr ⟨t', swapped', acc ▸ read⟩⟩, same''⟩
  | trans _ _ ih ih' =>
    obtain ⟨also', read, same'⟩ := ih false h same
    obtain ⟨also'', read', same''⟩ := ih' first' read .rfl
    exact ⟨also'', read', same'.trans same''⟩

end Shape

/-! ## What is read of a written value -/

/-- What a reader gives for a value, as it was written and with its keys sorted; its text is read back. -/
structure Reader.Recovers {α : Type} (read : Reader α) (n : Nat) (v : Json) (a : α) : Prop where
  written : ∀ close, Reader.Whole close → read (Outline.ofTree close v) = .ok a
  sorted : ∀ close, Reader.Whole close → read (Outline.ofTree close v.sorted) = .ok a
  readable : v.Readable n

namespace Reader

open Outline

variable {α β : Type} {n : Nat}

namespace Recovers

variable {read : Reader α} {v : Json} {a : α}

theorem map (h : Recovers read n v a) (f : α → β) : Recovers (fun o => (read o).map f) n v (f a) :=
  ⟨fun close whole => congrArg (Except.map f) (h.written close whole),
    fun close whole => congrArg (Except.map f) (h.sorted close whole), h.readable⟩

theorem of_sorted (h : Recovers read n v a) : Recovers read n v.sorted a :=
  ⟨h.sorted, fun close whole => by rw [Json.sorted_sorted]; exact h.sorted close whole, h.readable.sorted⟩

theorem text (s : String) : Recovers Reader.text n (.str s) s := ⟨fun _ _ => rfl, fun _ _ => rfl, .str s⟩

theorem option (h : Recovers read n v a) (present : v ≠ .null) : Recovers (Reader.option read) n v (some a) := by
  have reads {v : Json} (present : v ≠ .null) {close : Close} (h : read (ofTree close v) = .ok a) :
      Reader.option read (ofTree close v) = .ok (some a) := by
    cases v with
    | null => exact absurd rfl present
    | _ => exact congrArg (Except.map some) h
  have sorted : v.sorted ≠ .null := by
    cases v with
    | null => exact absurd rfl present
    | _ => intro null; cases null
  exact ⟨fun close whole => reads present (h.written close whole), fun close whole => reads sorted (h.sorted close whole),
    h.readable⟩

theorem bind {f : α → Except JsonFault β} {b : β} (h : Recovers read n v a) (goesOn : f a = .ok b) :
    Recovers (fun o => read o >>= f) n v b := by
  have reads {o : Outline} (h : read o = .ok a) : (read o >>= f) = .ok b := by
    rw [h]
    exact goesOn
  exact ⟨fun close whole => reads (h.written close whole), fun close whole => reads (h.sorted close whole), h.readable⟩

/-- A value whose keys are sorted. -/
theorem of_eq (sorted : v.sorted = v) (reads : ∀ close, Reader.Whole close → read (ofTree close v) = .ok a)
    (readable : v.Readable n) : Recovers read n v a :=
  ⟨reads, fun close whole => by rw [sorted]; exact reads close whole, readable⟩

/-- A free-form value with its keys sorted. -/
theorem json (sorted : v.sorted = v) (readable : v.Readable n) : Recovers Reader.json n v v :=
  of_eq sorted (fun close whole => by rw [json_ofTree whole, sorted]) readable

theorem nat {bound k : Nat} {expected : String} (small : k < bound) (fits : bound ≤ UInt64.size) :
    Recovers (natural bound expected) n (.nat k) k := by
  have reads (close : Close) : natural bound expected (ofTree close (.nat k)) = .ok k := by
    show (if 0 ≤ (k : Int) && (k : Int) < bound then Except.ok (k : Int).toNat else _) = _
    rw [if_pos (by simp [small]), Int.toNat_natCast]
  refine ⟨fun close _ => reads close, fun close _ => reads close, .num (readsBack_int ?_ ?_)⟩
  · exact Int.le_trans (by decide) (Int.natCast_nonneg k)
  · exact Int.ofNat_lt.mpr (Nat.lt_of_lt_of_le small fits)

theorem list {write : β → Json} {value : β → α} {items : List β}
    (each : ∀ b ∈ items, Recovers read n (write b) (value b)) :
    Recovers (Reader.list read) (n + 1) (.arr (items.map write)) (items.map value) := by
  have reads {close : Close} (whole : Whole close) (write : β → Json) (items : List β)
      (each : ∀ b ∈ items, read (ofTree close (write b)) = .ok (value b)) :
      Reader.list read (ofTree close (.arr (items.map write))) = .ok (items.map value) := by
    rw [ofTree, Reader.list, if_neg Bool.false_ne_true]
    induction items with
    | nil =>
      cases close with
      | cut rest => exact absurd rfl (whole rest)
      | _ => rfl
    | cons b items ih =>
      rw [List.map_cons, ofTreeItems, readItems, each b List.mem_cons_self,
        ih fun c member => each c (List.mem_cons_of_mem _ member)]
      rfl
  refine ⟨fun close whole => reads whole write items fun b member => (each b member).written close whole,
    fun close whole => ?_, .arr fun v member => ?_⟩
  · rw [Json.sorted, Json.sortedItems_eq_map, List.map_map]
    exact reads whole (Json.sorted ∘ write) items fun b member => (each b member).sorted close whole
  · obtain ⟨b, among, rfl⟩ := List.mem_map.mp member
    exact (each b among).readable

theorem singleton (h : Recovers read n v a) : Recovers (Reader.list read) (n + 1) (.arr [v]) [a] := by
  have each : ∀ u ∈ [()], Recovers read n ((fun _ => v) u) ((fun _ => a) u) := fun _ _ => h
  exact .list each

end Recovers
end Reader

/-! ## Records, field by field -/

namespace Shape

open Outline Reader

variable {σ α β : Type} {slots : List (Slot σ)} {n : Nat}

inductive Writes (n : Nat) : List (Slot σ) → List (String × Json) → σ → σ → Prop
  | nil {a : σ} : Writes n [] [] a a
  | field {slot : Slot σ} {slots : List (Slot σ)} {es : List (String × Json)} {v : Json} {a b c : σ}
      (stores : Recovers (slot.store · a) n v b) (rest : Writes n slots es b c) :
      Writes n (slot :: slots) ((slot.name, v) :: es) a c
  | skip {slot : Slot σ} {slots : List (Slot σ)} {es : List (String × Json)} {a c : σ} (optional : slot.need ≠ .required)
      (rest : Writes n slots es a c) : Writes n (slot :: slots) es a c

namespace Writes

variable {es : List (String × Json)} {a c : σ}

theorem keys (h : Writes n slots es a c) : (es.map (·.1)).Sublist (slots.map (·.name)) := by
  induction h with
  | nil => exact .slnil
  | @field slot _ _ _ _ _ _ _ _ ih => exact ih.cons_cons slot.name
  | @skip slot _ _ _ _ _ _ ih => exact ih.cons slot.name

theorem readable (h : Writes n slots es a c) : ∀ e ∈ es, e.2.Readable n := by
  induction h with
  | nil => exact nofun
  | field stores _ ih =>
    intro e member
    rcases List.mem_cons.mp member with rfl | member
    · exact stores.readable
    · exact ih e member
  | skip _ _ ih => exact ih

/-- The entries may have their values sorted. -/
theorem sortedEntries (h : Writes n slots es a c) : Writes n slots (Json.sortedEntries es) a c := by
  induction h with
  | nil => exact .nil
  | field stores _ ih => exact .field stores.of_sorted ih
  | skip optional _ ih => exact .skip optional ih

/-- Entries in the order of the fields: every field that must be there is met. -/
theorem reads {all : List (Slot σ)} (h : Writes n slots es a c) (known : ∀ s ∈ slots, slot? all s.name = some s)
    (nodup : (slots.map (·.name)).Nodup) {close : Close} (whole : Whole close) (first : Bool)
    {seen : List String} (fresh : ∀ s ∈ slots, s.name ∉ seen) :
    ∃ seen', readFields all first (ofTreeFields close es) .bracket seen a = .ok (seen', c) ∧
      (∀ s ∈ slots, s.need = .required → s.name ∈ seen') ∧ ∀ x ∈ seen, x ∈ seen' := by
  induction h generalizing first seen with
  | nil => exact ⟨seen, rfl, nofun, fun _ => id⟩
  | @field slot slots es v a b c stores rest ih =>
    obtain ⟨other, nodup⟩ := List.nodup_cons.mp nodup
    have fresh' : ∀ s ∈ slots, s.name ∉ slot.name :: seen := by
      intro s member
      rw [List.mem_cons, not_or]
      refine ⟨?_, fresh s (List.mem_cons_of_mem _ member)⟩
      intro same
      exact other (List.mem_map.mpr ⟨s, member, same⟩)
    obtain ⟨seen', read, met, kept⟩ := ih (fun s member => known s (List.mem_cons_of_mem _ member)) nodup
      false fresh'
    refine ⟨seen', readFields_cons.mpr ⟨_, .store (known slot List.mem_cons_self) (fresh slot List.mem_cons_self)
      (stores.written close whole), read⟩, ?_, fun x member => kept x (List.mem_cons_of_mem _ member)⟩
    intro s member required
    rcases List.mem_cons.mp member with rfl | member
    · exact kept _ List.mem_cons_self
    · exact met s member required
  | @skip slot slots es a c optional rest ih =>
    obtain ⟨-, nodup⟩ := List.nodup_cons.mp nodup
    obtain ⟨seen', read, met, kept⟩ := ih (fun s member => known s (List.mem_cons_of_mem _ member)) nodup
      first fun s member => fresh s (List.mem_cons_of_mem _ member)
    refine ⟨seen', read, ?_, kept⟩
    intro s member required
    rcases List.mem_cons.mp member with rfl | member
    · exact absurd required optional
    · exact met s member required

/-- A field that is always written. -/
theorem one {name : String} {need : Need} {read : Reader α} {put : α → σ → σ} {aliases : List String} {v : Json} {x : α}
    (reads : Recovers read n v x) (rest : Writes n slots es (put x a) c) :
    Writes n (.of name need read put aliases :: slots) ((name, v) :: es) a c := .field (reads.map (put · a)) rest

/-- A field that is left out if there is nothing to write. -/
theorem perhaps {name : String} {need : Need} {read : Reader α} {put : α → σ → σ} {aliases : List String}
    {write : β → Json} {o : Option β} {x : α} (optional : need ≠ .required)
    (present : ∀ b ∈ o, Recovers read n (write b) x) (absent : o = none → put x a = a)
    (rest : Writes n slots es (put x a) c) :
    Writes n (.of name need read put aliases :: slots) (Json.entry? name write o ++ es) a c := by
  cases o with
  | none =>
    rw [absent rfl] at rest
    exact .skip optional rest
  | some b => exact .one (present b rfl) rest

/-- A text that is left out if there is none. -/
theorem text? {name : String} {put : Option String → σ → σ} {aliases : List String} {o : Option String}
    (absent : put none a = a) (rest : Writes n slots es (put o a) c) :
    Writes n (.of name .defaulted (Reader.option Reader.text) put aliases :: slots) (Json.entry? name .str o ++ es) a c := by
  refine .perhaps nofun ?_ (fun nothing => nothing ▸ absent) rest
  rintro s rfl
  exact (Recovers.text s).option nofun

end Writes

variable {shape : Shape σ} {es : List (String × Json)} {blank a : σ}

theorem read_of_reads {fields : List (Key × Outline)} {close : Close} {seen : List String}
    (h : readFields shape.slots true fields close [] blank = .ok (seen, a))
    (met : ∀ s ∈ shape.slots, s.need = .required → s.name ∈ seen) : shape.read blank (.obj false fields close) = .ok a := by
  have nothing : firstMissing? shape.slots seen = none := by
    rw [firstMissing?, Option.map_eq_none_iff, List.find?_eq_none]
    intro s member
    simp only [Bool.and_eq_true, decide_eq_true_eq, Bool.not_eq_true', List.contains_eq_mem, decide_eq_false_iff_not,
      not_and, not_not]
    exact met s member
  rw [read, if_neg Bool.false_ne_true]
  simp only [bind, Except.bind, h, nothing]
  rfl

/-- Entries that are read in their order are also read in the order of their keys. -/
theorem recovers_of_reads (orderly : Orderly shape.slots) (nodup : (es.map (·.1)).Nodup)
    (readable : ∀ e ∈ es, e.2.Readable n)
    (reads : ∀ es' ∈ [es, Json.sortedEntries es], ∀ close, Reader.Whole close → ∃ seen,
      readFields shape.slots true (ofTreeFields close es') .bracket [] blank = .ok (seen, a) ∧
        ∀ s ∈ shape.slots, s.need = .required → s.name ∈ seen) :
    Recovers (shape.read blank) (n + 1) (.obj es) a := by
  refine ⟨fun close whole => ?_, fun close whole => ?_, .obj readable⟩
  · obtain ⟨seen, reads, met⟩ := reads es (by simp) close whole
    exact read_of_reads reads met
  · obtain ⟨seen, reads, met⟩ := reads (Json.sortedEntries es) (by simp) close whole
    rw [← Json.keys_sortedEntries] at nodup
    have perm : (ofTreeFields close (Json.sortedEntries es)).Perm
        (ofTreeFields close (Dictionary.ofEntries (Json.sortedEntries es)).entries) := by
      rw [ofTreeFields_eq_map, ofTreeFields_eq_map]
      exact (Dictionary.ofEntries_perm nodup).symm.map _
    obtain ⟨seen', reads', same⟩ := readFields_perm orderly whole_bracket perm true reads .rfl
    refine read_of_reads reads' ?_
    intro s member required
    exact same.mem_iff.mp (met s member required)

/-- A record is read back from its entries. -/
theorem recovers (orderly : Orderly shape.slots) (h : Writes n shape.slots es blank a) :
    Recovers (shape.read blank) (n + 1) (.obj es) a := by
  refine recovers_of_reads orderly (orderly.nodup.sublist h.keys) h.readable fun es' which close whole => ?_
  have written : Writes n shape.slots es' blank a := by
    rcases List.mem_pair.mp which with rfl | rfl
    · exact h
    · exact h.sortedEntries
  obtain ⟨seen, reads, met, -⟩ := written.reads orderly.slot? orderly.nodup whole true fun _ _ => List.not_mem_nil
  exact ⟨seen, reads, met⟩

/-- The same with an entry in front that the record does not know. -/
theorem recovers_beside (orderly : Orderly shape.slots) {name : String} {v : Json}
    (unknown : slot? shape.slots name = none) (readable : v.Readable n) (h : Writes n shape.slots es blank a) :
    Recovers (shape.read blank) (n + 1) (.obj ((name, v) :: es)) a := by
  have foreign : name ∉ es.map (·.1) := by
    intro known
    obtain ⟨s, member, rfl⟩ := List.mem_map.mp (h.keys.subset known)
    rw [orderly.slot? s member] at unknown
    cases unknown
  refine recovers_of_reads orderly (List.nodup_cons.mpr ⟨foreign, orderly.nodup.sublist h.keys⟩)
    (List.forall_mem_cons.mpr ⟨readable, h.readable⟩) fun es' which close whole => ?_
  obtain ⟨w, es, rfl, h⟩ : ∃ w fs, es' = (name, w) :: fs ∧ Writes n shape.slots fs blank a := by
    rcases List.mem_pair.mp which with rfl | rfl
    · exact ⟨v, es, rfl, h⟩
    · exact ⟨v.sorted, _, rfl, h.sortedEntries⟩
  obtain ⟨seen, reads, met, -⟩ := h.reads orderly.slot? orderly.nodup whole false fun _ _ => List.not_mem_nil
  exact ⟨seen, readFields_cons.mpr ⟨_, .skip unknown (skipFault?_ofTree whole w), reads⟩, met⟩

end Shape
end EventFlow
