/-
  EventFlow.Proofs.Json.Yields — what the values of a reader have in common, whatever text it reads.

  `Reader.Yields read depth P` says that `P` holds of every value that `read` makes of an outline found
  in `depth` lists and objects. There is one lemma for each way to put readers together. A free-form
  value is the one thing that depends on the text: its keys are sorted, it nests as deep as its place
  allows and its text is read back (`Json.Settled`). Records keep what each of their fields keeps, be
  they written as objects or as lists (`Shape.Keeps`).

  Proved:
  - `Yields.json` / `option` / `list` / `untagged` / `tagged`: readers of values.
  - `Shape.yields`: records, by induction on the entries or on the items.
  - `Yields.ofText`: whole texts.
-/

import EventFlow.Proofs.Json.Scanned

namespace EventFlow

/-- A free-form value as it is read: its keys ascend, and its text nests in at most `n` lists and objects
    and is read back. -/
structure Json.Settled (n : Nat) (v : Json) : Prop where
  sorted : v.sorted = v
  readable : v.Readable n

namespace Reader

open Outline

variable {α β : Type} {depth : Nat}

/-! ## Values that are read -/

theorem mem_of_variant {known : List (String × α)} {name : String} {a : α} (h : variant known name = .ok a) :
    ∃ e ∈ known, e.2 = a := by
  unfold variant at h
  split at h
  · next found =>
    cases h
    exact ⟨_, List.mem_of_find?_eq_some found, rfl⟩
  · cases h

theorem toOption_eq_some {ε : Type} {x : Except ε α} {a : α} (h : x.toOption = some a) : x = .ok a := by
  cases x with
  | error f => cases h
  | ok b => exact congrArg Except.ok (Option.some.inj h)

theorem mismatch_ne_ok (expected : String) (o : Outline) (a : α) : mismatch expected o ≠ .ok a := by
  cases o <;> exact nofun

/-! ## Readers -/

/-- What all values have in common that a reader makes of outlines found in `depth` lists and objects. -/
def Yields (read : Reader α) (depth : Nat) (P : α → Prop) : Prop :=
  ∀ ⦃o : Outline⦄, Scanned depth o → ∀ ⦃a : α⦄, read o = .ok a → P a

namespace Yields

variable {read : Reader α} {P : α → Prop}

theorem trivial : read.Yields depth fun _ => True := fun _ _ _ _ => True.intro

theorem map (h : read.Yields depth P) {Q : β → Prop} {f : α → β} (goesOn : ∀ a, P a → Q (f a)) :
    Reader.Yields (fun o => (read o).map f) depth Q := by
  intro o scanned b reads
  obtain ⟨a, inner, rfl⟩ := map_ok reads
  exact goesOn a (h scanned inner)

theorem json : Reader.json.Yields depth (Json.Settled (depthLimit - depth)) := by
  intro o scanned v reads
  obtain ⟨w, full, rfl⟩ := map_ok reads
  exact ⟨w.sorted_sorted, (scanned.readable full).sorted⟩

/-- A value that was set aside keeps its place. -/
theorem setAside : Reader.setAside.Yields depth (Scanned depth) := by
  intro o scanned o' reads
  obtain ⟨w, full, rfl⟩ := map_ok reads
  exact (scanned.readable full).scanned (Nat.le_refl _) .setAside

theorem option (h : read.Yields depth P) : (Reader.option read).Yields depth fun a? => ∀ a ∈ a?, P a := by
  intro o scanned a? reads
  unfold Reader.option at reads
  split at reads
  · cases reads
    exact nofun
  · obtain ⟨a, present, rfl⟩ := map_ok reads
    rintro _ ⟨⟩
    exact h scanned present

theorem list (h : read.Yields (depth + 1) P) : (Reader.list read).Yields depth fun as => ∀ a ∈ as, P a := by
  intro o scanned as reads
  unfold Reader.list at reads
  split at reads
  · cases scanned with | arr _ each =>
    split at reads
    · cases reads
    · intro a member
      obtain ⟨o, among, item⟩ := mem_readItems reads a member
      exact h (each o among) item
  · exact absurd reads (mismatch_ne_ok _ _ _)

theorem untagged {title : String} {alternatives : List (Reader α)} (h : ∀ read ∈ alternatives, read.Yields depth P) :
    (Reader.untagged title alternatives).Yields depth P := by
  intro o scanned a reads
  obtain ⟨content, aside, reads⟩ := bind_ok reads
  split at reads
  · next found =>
    cases reads
    obtain ⟨read, among, fits⟩ := List.exists_of_findSome?_eq_some found
    exact h read among (setAside scanned aside) (toOption_eq_some fits)
  · cases reads

/-- Whatever a tag says, the alternative is one of those that are given. -/
theorem ofTag {alts : Alternatives α} (known : ∀ e ∈ alts.known, e.2.Yields depth P)
    (other : ∀ read ∈ alts.other, read.Yields depth P) {v : Outline} (h : alts.ofTag v = .ok read) :
    read.Yields depth P := by
  unfold Alternatives.ofTag at h
  split at h
  · next name =>
    unfold Alternatives.get at h
    split at h
    · next usual given =>
      cases h
      cases found : alts.known.find? (·.1 = name) with
      | none => exact other usual given
      | some e => exact known e (List.mem_of_find?_eq_some found)
    · obtain ⟨e, among, rfl⟩ := mem_of_variant h
      exact known e among
  · exact absurd h (mismatch_ne_ok _ _ _)

/-- The alternatives of a tagged choice read what is left of the object or list. -/
theorem splitTag {tag : String} {alts : Alternatives α} (known : ∀ e ∈ alts.known, e.2.Yields depth P)
    (other : ∀ read ∈ alts.other, read.Yields depth P) {first : Bool} {fields others : List (Key × Outline)}
    {close : Close} {found found' : Option (Reader α)} (scanned : ∀ e ∈ fields, Scanned (depth + 1) e.2)
    (before : ∀ read ∈ found, read.Yields depth P)
    (reads : Reader.splitTag tag alts first fields close found = .ok (found', others)) :
    (∀ e ∈ others, Scanned (depth + 1) e.2) ∧ ∀ read ∈ found', read.Yields depth P := by
  induction fields generalizing first found others with
  | nil =>
    cases close <;> cases reads <;> exact ⟨nofun, before⟩
  | cons e rest ih =>
    obtain ⟨here, scanned⟩ := List.forall_mem_cons.mp scanned
    obtain ⟨name, -, reads⟩ := bind_ok reads
    split at reads
    · split at reads
      · cases reads
      · obtain ⟨read, tagged, reads⟩ := bind_ok reads
        refine ih scanned ?_ reads
        rintro _ ⟨⟩
        exact ofTag known other tagged
    · obtain ⟨content, aside, reads⟩ := bind_ok reads
      obtain ⟨⟨found, others⟩, later, reads⟩ := bind_ok reads
      cases reads
      obtain ⟨left, chosen⟩ := ih scanned before later
      exact ⟨List.forall_mem_cons.mpr ⟨setAside here aside, left⟩, chosen⟩

theorem tagged {title tag : String} {alts : Alternatives α} (known : ∀ e ∈ alts.known, e.2.Yields depth P)
    (other : ∀ read ∈ alts.other, read.Yields depth P) : (Reader.tagged title tag alts).Yields depth P := by
  intro o scanned a reads
  unfold Reader.tagged at reads
  split at reads
  · next deep fields close =>
    cases scanned with | obj followed each =>
    cases deep with
    | true => cases reads
    | false =>
      obtain ⟨⟨found, others⟩, parted, reads⟩ := bind_ok reads
      obtain ⟨left, chosen⟩ := splitTag known other each (by rintro _ ⟨⟩) parted
      cases found with
      | none => cases reads
      | some read => exact chosen read rfl (.obj (fun _ => followed rfl) left) reads
  · next deep items close =>
    cases scanned with | arr followed each =>
    cases deep with
    | true => cases reads
    | false =>
      cases items with
      | nil => cases close <;> cases reads
      | cons v rest =>
        obtain ⟨read, chosen, reads⟩ := bind_ok reads
        obtain ⟨others, full, reads⟩ := bind_ok reads
        refine ofTag known other chosen (.arr (fun _ => followed rfl) ?_) reads
        rw [ofTreeItems_eq_map]
        intro o member
        obtain ⟨w, among, rfl⟩ := List.mem_map.mp member
        obtain ⟨o, place, reads⟩ := mem_readItems (treeItems_eq rest close ▸ full) w among
        exact ((each o (List.mem_cons_of_mem v place)).readable reads).scanned (Nat.le_refl _) .setAside
  · exact absurd reads (mismatch_ne_ok _ _ _)

theorem nothing {a : α} (h : P a) : (Reader.nothing a).Yields depth P := by
  intro o _ b reads
  unfold Reader.nothing at reads
  split at reads
  · split at reads
    · cases reads
      exact h
    · unfold Shape.surplus at reads
      split at reads <;> cases reads
      exact h
  · cases reads
    exact h

/-- A whole text. -/
theorem ofText (h : read.Yields 0 P) {s : String} {a : α} (reads : Reader.ofText read s = .ok a) : P a := by
  obtain ⟨value, inner, reads⟩ := bind_ok reads
  have scanned := h (scanned_scan s.toList) inner
  split at reads
  · split at reads
    · cases reads
      exact scanned
    · cases reads
  · cases reads
    exact scanned

end Yields
end Reader

/-! ## Records -/

namespace Shape

open Outline Reader

variable {σ α : Type} {depth : Nat} {I : σ → Prop} {slots : List (Slot σ)}

def Keeps (slots : List (Slot σ)) (depth : Nat) (I : σ → Prop) : Prop :=
  ∀ slot ∈ slots, ∀ s, I s → Reader.Yields (slot.store · s) depth I

namespace Keeps

variable {name : String} {need : Need} {aliases : List String} {read : Reader α} {put : α → σ → σ}

theorem nil : Keeps [] depth I := nofun

/-- A field whose values are good enough for the record. -/
theorem field {P : α → Prop} (yields : read.Yields depth P) (keeps : ∀ a s, P a → I s → I (put a s))
    (rest : Keeps slots depth I) : Keeps (.of name need read put aliases :: slots) depth I :=
  List.forall_mem_cons.mpr ⟨fun s known => yields.map fun a good => keeps a s good known, rest⟩

/-- A field that does not matter. -/
theorem other (keeps : ∀ a s, I s → I (put a s)) (rest : Keeps slots depth I) :
    Keeps (.of name need read put aliases :: slots) depth I := field .trivial (fun a s _ => keeps a s) rest

end Keeps

theorem yields_readFields (keeps : Keeps slots depth I) {first : Bool} {fields : List (Key × Outline)} {close : Close}
    {seen seen' : List String} {s s' : σ} (scanned : ∀ e ∈ fields, Scanned depth e.2) (known : I s)
    (reads : readFields slots first fields close seen s = .ok (seen', s')) : I s' := by
  induction fields generalizing first seen s with
  | nil =>
    cases close <;> cases reads <;> exact known
  | cons e rest ih =>
    obtain ⟨here, later⟩ := List.forall_mem_cons.mp scanned
    obtain ⟨t, takes, reads⟩ := readFields_cons.mp reads
    cases takes with
    | skip => exact ih later known reads
    | store field _ stores => exact ih later (keeps _ (List.mem_of_find?_eq_some field) s known here stores) reads

theorem yields_readItems {shape : Shape σ} (keeps : Keeps slots depth I) {i : Nat} {items : List Outline}
    {close : Close} {s s' : σ} (scanned : ∀ o ∈ items, Scanned depth o) (known : I s)
    (reads : readItems shape slots i items close s = .ok s') : I s' := by
  induction slots, i, items, close, s using readItems.induct with
  | case1 => cases reads
  | case2 i close s whole =>
    rw [readItems.eq_2 shape i close s whole] at reads
    cases reads
    exact known
  | case3 i more close s whole some =>
    rw [readItems.eq_3 shape i more close s some whole] at reads
    cases close <;> cases reads
    exact known
  | case4 slots i rest s some =>
    rw [readItems.eq_4 shape slots i s rest some] at reads
    cases reads
  | case5 slot slots i close s whole defaulted ih =>
    rw [readItems.eq_5 shape i close s slot slots whole, if_pos defaulted] at reads
    exact ih (List.forall_mem_cons.mp keeps).2 scanned known reads
  | case6 slot slots i close s whole needed =>
    rw [readItems.eq_5 shape i close s slot slots whole, if_neg needed] at reads
    cases reads
  | case7 slot slots i o rest close s ih =>
    rw [readItems] at reads
    obtain ⟨t, stores, reads⟩ := bind_ok reads
    obtain ⟨here, others⟩ := List.forall_mem_cons.mp keeps
    obtain ⟨first, later⟩ := List.forall_mem_cons.mp scanned
    exact ih t others later (here s known first stores) reads

/-- A record has what its fields keep. -/
theorem yields {shape : Shape σ} (keeps : Keeps shape.slots (depth + 1) I) {blank : σ} (known : I blank) :
    (shape.read blank).Yields depth I := by
  intro o scanned s reads
  unfold Shape.read at reads
  split at reads
  · next deep fields close =>
    cases scanned with | obj followed each =>
    split at reads
    · cases reads
    · obtain ⟨⟨seen, s⟩, taken, reads⟩ := bind_ok reads
      dsimp only at reads
      split at reads
      · cases reads
      · cases reads
        exact yields_readFields keeps each known taken
  · next deep items close =>
    cases scanned with | arr followed each =>
    split at reads
    · cases reads
    · exact yields_readItems keeps each known reads
  · exact absurd reads (mismatch_ne_ok _ _ _)

end Shape
end EventFlow
