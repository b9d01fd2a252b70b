/-
  EventFlow.Proofs.Json.Scanned — what is read from a text can be written and read again.

  The scanner marks the lists and objects that stand in too many others, and every number that it makes
  is written and read without loss: integers that fit 64 bits, and doubles (`Outline.Scanned`). A value
  that is read in full has no mark, so its text is read back wherever it stands no deeper than before.

  Proved:
  - `scanned_scan`: the outline of any text, by induction on the fuel of the scanner.
  - `Scanned.readable`: a value that is read in full nests no deeper than its place allows.
  - `Readable.scanned`: such a value is itself an outline that may stand in this place.
-/

import EventFlow.Proofs.Json.Depth
import EventFlow.Proofs.Json.Number

namespace EventFlow

namespace Outline

inductive Scanned : Nat → Outline → Prop
  | null {depth : Nat} : Scanned depth .null
  | bool {depth : Nat} (b : Bool) : Scanned depth (.bool b)
  | num {depth : Nat} {n : JsonNumber} (reads : n.ReadsBack) : Scanned depth (.num n)
  | hugeNum {depth : Nat} : Scanned depth .hugeNum
  | str {depth : Nat} (s : String) : Scanned depth (.str s)
  | faultyStr {depth : Nat} (f : SyntaxFault) : Scanned depth (.faultyStr f)
  | arr {depth : Nat} {deep : Bool} {items : List Outline} {close : Close}
      (followed : deep = false → depth < depthLimit) (each : ∀ o ∈ items, Scanned (depth + 1) o) :
      Scanned depth (.arr deep items close)
  | obj {depth : Nat} {deep : Bool} {fields : List (Key × Outline)} {close : Close}
      (followed : deep = false → depth < depthLimit) (each : ∀ e ∈ fields, Scanned (depth + 1) e.2) :
      Scanned depth (.obj deep fields close)
  | broken {depth : Nat} (lead : Option Char) (read skip : SyntaxFault) : Scanned depth (.broken lead read skip)

variable {depth : Nat}

/-! ## Words, numbers and texts -/

theorem scanned_scanWord {lead : Char} {value : Outline} (h : Scanned depth value) (word s : List Char) :
    Scanned depth (scanWord lead value word s).1 := by
  induction word generalizing s with
  | nil => exact h
  | cons w word ih =>
    cases s with
    | nil => exact .broken ..
    | cons c s =>
      rw [scanWord]
      split
      · exact ih s
      · exact .broken ..

theorem scanned_ofDecimal (negative : Bool) (digits : Nat) (exponent : Int) :
    Scanned depth (decimalOf negative digits exponent) := by
  rw [decimalOf]
  split
  · next finite => exact .num (readsBack_double (BinaryFormat.double.holds_ofDecimal (by decide) ..) finite)
  · exact .hugeNum

theorem scanned_integerOf (negative : Bool) (n : Nat) : Scanned depth (integerOf negative n) := by
  cases negative with
  | true =>
    rw [integerOf, if_pos rfl]
    split
    · exact .num (readsBack_double (.inl ⟨rfl, rfl⟩) rfl)
    split
    · next low =>
      have negative : -(n : Int) ≤ 0 := Int.neg_nonpos_of_nonneg (Int.natCast_nonneg n)
      exact .num (readsBack_int low (Int.lt_of_le_of_lt negative (by decide)))
    · exact scanned_ofDecimal true n 0
  | false =>
    rw [integerOf, if_neg Bool.false_ne_true]
    split
    · next high => exact .num (readsBack_int (Int.le_trans (by decide) (Int.natCast_nonneg n)) (Int.ofNat_lt.mpr high))
    · exact scanned_ofDecimal false n 0

theorem scanned_scanExponent (lead : Char) (negative : Bool) (digits places : Nat) (s : List Char) :
    Scanned depth (scanExponent lead negative digits places s).1 := by
  unfold scanExponent
  dsimp only
  -- after either sign or none
  split <;> split
  all_goals first
    | exact .broken ..
    | exact scanned_ofDecimal ..

theorem scanned_scanFraction (lead : Char) (negative : Bool) (whole : Nat) (s : List Char) :
    Scanned depth (scanFraction lead negative whole s).1 := by
  unfold scanFraction
  dsimp only
  split
  · split
    · exact .broken ..
    · split
      · exact scanned_scanExponent ..
      · exact scanned_scanExponent ..
      · exact scanned_ofDecimal ..
  · exact scanned_scanExponent ..
  · exact scanned_scanExponent ..
  · exact scanned_integerOf ..

theorem scanned_scanNumber (lead : Char) (negative : Bool) (s : List Char) :
    Scanned depth (scanNumber lead negative s).1 := by
  unfold scanNumber
  dsimp only
  split
  · exact .broken ..
  · exact .broken ..
  · exact scanned_scanFraction ..

theorem scanned_scanText (s : List Char) : Scanned depth (scanText s).1 := by
  unfold scanText
  split
  · exact .broken ..
  · split
    · exact .str _
    · exact .faultyStr _

/-! ## Values -/

mutual

theorem scanned_scanValue : (fuel : Nat) → ∀ {depth : Nat} {s : List Char}, Scanned depth (scanValue fuel depth s).1
  | 0, _, _ => by
    rw [scanValue]
    exact .broken ..
  | fuel + 1, depth, s => by
    have followed (h : decide (depthLimit < depth + 1) = false) : depth < depthLimit :=
      Nat.not_lt.mp (of_decide_eq_false h)
    rw [scanValue]
    split
    · exact .broken ..
    · exact scanned_scanWord .null ..
    · exact scanned_scanWord (.bool true) ..
    · exact scanned_scanWord (.bool false) ..
    · exact scanned_scanText _
    · exact scanned_scanNumber ..
    · exact .arr followed (scanned_scanItems fuel)
    · exact .obj followed (scanned_scanFields fuel)
    · split
      · exact scanned_scanNumber ..
      · exact .broken ..

theorem scanned_scanItems : (fuel : Nat) → ∀ {depth : Nat} {first : Bool} {s : List Char},
    ∀ o ∈ (scanItems fuel depth first s).1, Scanned depth o
  | 0, _, _, _ => by
    unfold scanItems
    exact nofun
  | fuel + 1, depth, first, s => by
    unfold scanItems
    split
    · exact nofun
    · exact nofun
    · split
      · exact nofun
      · exact nofun
      · exact scanned_scanItem fuel
    · exact scanned_scanItem fuel
    · exact nofun

theorem scanned_scanItem : (fuel : Nat) → ∀ {depth : Nat} {s : List Char},
    ∀ o ∈ (scanItem fuel depth s).1, Scanned depth o
  | 0, _, _ => by
    unfold scanItem
    exact nofun
  | fuel + 1, depth, s => by
    have value := @scanned_scanValue fuel depth s
    unfold scanItem
    split
    · next v stops =>
      rw [stops] at value
      exact List.forall_mem_singleton.mpr value
    · next v r goesOn =>
      rw [goesOn] at value
      exact List.forall_mem_cons.mpr ⟨value, scanned_scanItems fuel⟩

theorem scanned_scanFields : (fuel : Nat) → ∀ {depth : Nat} {first : Bool} {s : List Char},
    ∀ e ∈ (scanFields fuel depth first s).1, Scanned depth e.2
  | 0, _, _, _ => by
    unfold scanFields
    exact nofun
  | fuel + 1, depth, first, s => by
    unfold scanFields
    split
    · exact nofun
    · exact nofun
    · exact scanned_scanField fuel
    · split
      · exact scanned_scanField fuel
      · exact nofun
    · exact nofun

theorem scanned_scanField : (fuel : Nat) → ∀ {depth : Nat} {whole s : List Char},
    ∀ e ∈ (scanField fuel depth whole s).1, Scanned depth e.2
  | 0, _, _, _ => by
    unfold scanField
    exact nofun
  | fuel + 1, depth, whole, s => by
    unfold scanField
    split
    · exact nofun
    · dsimp only
      split
      · next r _ =>
        have value := @scanned_scanValue fuel depth r
        split
        · next v stops =>
          rw [stops] at value
          exact List.forall_mem_singleton.mpr value
        · next v r' goesOn =>
          rw [goesOn] at value
          exact List.forall_mem_cons.mpr ⟨value, scanned_scanFields fuel⟩
      · exact List.forall_mem_singleton.mpr (.broken ..)
      · exact List.forall_mem_singleton.mpr (.broken ..)

end

theorem scanned_scan (s : List Char) : Scanned 0 (scan s).1 := scanned_scanValue _

end Outline

/-! ## Values in full -/

namespace Reader

open Outline

variable {α : Type} {depth : Nat}

theorem mem_readItems {read : Reader α} {items : List Outline} {close : Close} {as : List α}
    (h : readItems read items close = .ok as) : ∀ a ∈ as, ∃ o ∈ items, read o = .ok a := by
  induction items generalizing as with
  | nil =>
    cases close <;> cases h <;> exact nofun
  | cons o rest ih =>
    obtain ⟨a, first, h⟩ := bind_ok h
    obtain ⟨as, others, h⟩ := bind_ok h
    cases h
    refine List.forall_mem_cons.mpr ⟨⟨o, List.mem_cons_self, first⟩, fun b member => ?_⟩
    obtain ⟨o', among, reads⟩ := ih others b member
    exact ⟨o', List.mem_cons_of_mem o among, reads⟩

theorem mem_readEntries {read : Reader α} {fields : List (Key × Outline)} {first : Bool} {close : Close}
    {es : List (String × α)} (h : readEntries read first fields close = .ok es) :
    ∀ e ∈ es, ∃ f ∈ fields, read f.2 = .ok e.2 := by
  induction fields generalizing first es with
  | nil =>
    cases close <;> cases h <;> exact nofun
  | cons f rest ih =>
    obtain ⟨name, -, h⟩ := bind_ok h
    obtain ⟨a, here, h⟩ := bind_ok h
    obtain ⟨es, others, h⟩ := bind_ok h
    cases h
    refine List.forall_mem_cons.mpr ⟨⟨f, List.mem_cons_self, here⟩, fun e member => ?_⟩
    obtain ⟨f', among, reads⟩ := ih others e member
    exact ⟨f', List.mem_cons_of_mem f among, reads⟩

theorem treeItems_eq (items : List Outline) (close : Close) : treeItems items close = readItems tree items close := by
  induction items with
  | nil => cases close <;> rfl
  | cons o rest ih => rw [treeItems, readItems, ih]

theorem treeFields_eq (first : Bool) (fields : List (Key × Outline)) (close : Close) :
    treeFields first fields close = readEntries tree first fields close := by
  induction fields generalizing first with
  | nil => cases close <;> rfl
  | cons f rest ih => rw [treeFields, readEntries, ih]

/-- What is left below a list or an object that is followed. -/
theorem succ_below (followed : depth < depthLimit) : depthLimit - depth = depthLimit - (depth + 1) + 1 := by
  omega

end Reader

theorem Outline.Scanned.readable {depth : Nat} {o : Outline} (scanned : Scanned depth o) {v : Json}
    (h : Reader.tree o = .ok v) : v.Readable (depthLimit - depth) := by
  induction scanned generalizing v with
  | null => cases h; exact .null
  | bool b => cases h; exact .bool b
  | num reads => cases h; exact .num reads
  | str s => cases h; exact .str s
  | hugeNum | faultyStr | broken => cases h
  | @arr _ deep items close followed _ ih =>
    obtain ⟨rfl, vs, full, rfl⟩ := Reader.tree_arr h
    rw [Reader.treeItems_eq] at full
    rw [Reader.succ_below (followed rfl)]
    refine .arr fun v member => ?_
    obtain ⟨o, among, reads⟩ := Reader.mem_readItems full v member
    exact ih o among reads
  | @obj _ deep fields close followed _ ih =>
    obtain ⟨rfl, es, full, rfl⟩ := Reader.tree_obj h
    rw [Reader.treeFields_eq] at full
    rw [Reader.succ_below (followed rfl)]
    refine .obj fun e member => ?_
    obtain ⟨f, among, reads⟩ := Reader.mem_readEntries full e member
    exact ih f among reads

/-- A value tree that fits in its place is as good as one that was found there. -/
theorem Json.Readable.scanned {n : Nat} {v : Json} (h : v.Readable n) {depth : Nat}
    (fits : n ≤ Outline.depthLimit - depth) (close : Close) : Outline.Scanned depth (.ofTree close v) := by
  induction h generalizing depth with
  | null => exact .null
  | bool b => exact .bool b
  | num reads => exact .num reads
  | str s => exact .str s
  | @arr n items _ ih =>
    rw [Outline.ofTree, Outline.ofTreeItems_eq_map]
    refine .arr (fun _ => by omega) fun o member => ?_
    obtain ⟨v, among, rfl⟩ := List.mem_map.mp member
    exact ih v among (by omega)
  | @obj n fields _ ih =>
    rw [Outline.ofTree, Outline.ofTreeFields_eq_map]
    refine .obj (fun _ => by omega) fun o member => ?_
    obtain ⟨e, among, rfl⟩ := List.mem_map.mp member
    exact ih e among (by omega)

end EventFlow
