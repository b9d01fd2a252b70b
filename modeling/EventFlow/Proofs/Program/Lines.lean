/-
  EventFlow.Proofs.Program.Lines — the lines of a text, and what can stand in one.

  A text is cut at its line breaks. Lines that are joined are found again if none of them has a break in it.
  Nothing that a program writes into a line brings one along: names are identifiers, a literal has its line
  breaks escaped, and a number has none.

  Proved:
  - `lines_join` / `join_blocks`: the lines of joined lines and of joined blocks.
  - `unbroken_literal` / `unbroken_write`: literals and numbers.
-/

import EventFlow.Program.Render
import EventFlow.Proofs.Program.Families

namespace EventFlow

namespace Text

/-! ## Lines -/

def Unbroken (s : String) : Prop := '\n' ∉ s.toList

instance (s : String) : Decidable (Unbroken s) := inferInstanceAs (Decidable (¬ '\n' ∈ s.toList))

@[simp] theorem unbroken_append {a b : String} : Unbroken (a ++ b) ↔ Unbroken a ∧ Unbroken b := by
  simp [Unbroken, String.toList_append]

/-- Literals are compared as lists of characters, so that none of them is decoded. -/
theorem unbroken_ofList {l : List Char} (h : '\n' ∉ l) : Unbroken (String.ofList l) := by
  rwa [Unbroken, String.toList_ofList]

theorem unbroken_around {front back : List Char} {text : String} (plain : '\n' ∉ front ++ back) (h : Unbroken text) :
    Unbroken (String.ofList front ++ text ++ String.ofList back) := by
  rw [List.mem_append, not_or] at plain
  exact unbroken_append.mpr ⟨unbroken_append.mpr ⟨unbroken_ofList plain.1, h⟩, unbroken_ofList plain.2⟩

/-- How a text begins is told by its first part, if that is long enough. -/
theorem begins_append {front first : List Char} (rest : String) (long : front.length ≤ first.length) :
    (String.ofList front).toList <+: (String.ofList first ++ rest).toList ↔ front <+: first := by
  rw [String.toList_append, String.toList_ofList, String.toList_ofList, List.prefix_iff_eq_take, List.prefix_iff_eq_take,
    List.take_append_of_le_length long]

theorem begins_ofList {front line : List Char} : (String.ofList front).toList <+: (String.ofList line).toList ↔ front <+: line := by
  rw [String.toList_ofList, String.toList_ofList]

/-- The lines of a text; an empty text has none. -/
def lines (text : String) : List String := if text.isEmpty then [] else (text.toList.splitOn '\n').map String.ofList

theorem join_cons_of_ne_nil (sep s : String) {rest : List String} (some : rest ≠ []) :
    join sep (s :: rest) = s ++ sep ++ join sep rest := by
  obtain ⟨t, rest, rfl⟩ := List.exists_cons_of_ne_nil some
  rw [join, String.intercalate_cons_cons]
  rfl

theorem join_append (sep : String) {front rest : List String} (someFront : front ≠ []) (someRest : rest ≠ []) :
    join sep (front ++ rest) = join sep front ++ sep ++ join sep rest := by
  induction front with
  | nil => exact absurd rfl someFront
  | cons s front ih =>
    by_cases last : front = []
    · subst last
      rw [List.singleton_append, join_cons_of_ne_nil sep s someRest]
      rfl
    · rw [List.cons_append, join_cons_of_ne_nil sep s (by simp [last]), join_cons_of_ne_nil sep s last, ih last]
      simp only [String.append_assoc]

theorem unbroken_join {sep : String} (unbroken : Unbroken sep) {parts : List String} (h : ∀ s ∈ parts, Unbroken s) :
    Unbroken (join sep parts) := by
  induction parts with
  | nil => exact (by decide : Unbroken "")
  | cons s parts ih =>
    obtain ⟨first, others⟩ := List.forall_mem_cons.mp h
    by_cases last : parts = []
    · subst last
      exact first
    · rw [join_cons_of_ne_nil sep s last]
      simp [first, unbroken, ih others]

theorem lines_join {ls : List String} (unbroken : ∀ s ∈ ls, Unbroken s) (some : ls ≠ [""]) : lines (join "\n" ls) = ls := by
  by_cases none : ls = []
  · subst none
    rfl
  have split : (join "\n" ls).toList.splitOn '\n' = ls.map String.toList := by
    rw [join, String.toList_intercalate]
    refine List.splitOn_intercalate '\n' ?_ (by simp [none])
    intro line hline
    obtain ⟨s, hs, rfl⟩ := List.mem_map.mp hline
    exact unbroken s hs
  have full : (join "\n" ls).isEmpty = false := by
    by_contra empty
    rw [Bool.not_eq_false, String.isEmpty_iff] at empty
    have one := congrArg (List.map String.ofList) split
    rw [empty, List.map_map] at one
    exact some (by simpa using one.symm)
  rw [lines, full, split]
  simp

theorem lines_join_of_full {ls : List String} (unbroken : ∀ s ∈ ls, Unbroken s) (full : ∀ s ∈ ls, s ≠ "") :
    lines (join "\n" ls) = ls := by
  refine lines_join unbroken ?_
  rintro rfl
  exact full "" List.mem_cons_self rfl

/-- Blocks of lines, a blank line apart. -/
theorem join_blocks {blocks : List (List String)} (full : ∀ b ∈ blocks, b ≠ []) :
    join "\n\n" (blocks.map (join "\n")) = join "\n" ([""].intercalate blocks) := by
  induction blocks with
  | nil => rfl
  | cons b blocks ih =>
    obtain ⟨here, others⟩ := List.forall_mem_cons.mp full
    cases blocks with
    | nil => simp [join]
    | cons next blocks =>
      have rest : [""].intercalate (next :: blocks) ≠ [] := by
        cases blocks <;> simp [others next List.mem_cons_self]
      have blank : "\n\n" = "\n" ++ "\n" := rfl
      rw [List.map_cons, join_cons_of_ne_nil _ _ (by simp), ih others, List.intercalate_cons_cons, List.append_assoc,
        join_append _ here (by simp), List.singleton_append, join_cons_of_ne_nil _ _ rest, String.empty_append, blank]
      simp only [String.append_assoc]

theorem mem_blocks_iff {blocks : List (List String)} {line : String} :
    line ∈ [""].intercalate blocks ↔ (∃ b ∈ blocks, line ∈ b) ∨ line = "" ∧ 2 ≤ blocks.length := by
  induction blocks with
  | nil => simp
  | cons b blocks ih =>
    cases blocks with
    | nil => simp
    | cons next blocks =>
      rw [List.intercalate_cons_cons, List.append_assoc, List.mem_append, List.singleton_append, List.mem_cons, ih]
      simp only [List.mem_cons, List.length_cons, exists_eq_or_imp]
      constructor
      · rintro (here | blank | (next | later) | ⟨blank, -⟩)
        · exact .inl (.inl here)
        · exact .inr ⟨blank, by omega⟩
        · exact .inl (.inr (.inl next))
        · exact .inl (.inr (.inr later))
        · exact .inr ⟨blank, by omega⟩
      · rintro ((here | next | later) | ⟨blank, -⟩)
        · exact .inl here
        · exact .inr (.inr (.inl (.inl next)))
        · exact .inr (.inr (.inl (.inr later)))
        · exact .inr (.inl blank)

theorem infix_blocks {blocks : List (List String)} {b : List String} (hb : b ∈ blocks) : b <:+: [""].intercalate blocks := by
  induction blocks with
  | nil => cases hb
  | cons first blocks ih =>
    cases blocks with
    | nil =>
      rw [List.mem_singleton.mp hb]
      simp
    | cons next blocks =>
      rw [List.intercalate_cons_cons, List.append_assoc]
      rcases List.mem_cons.mp hb with rfl | hb
      · exact (List.prefix_append _ _).isInfix
      · exact (ih hb).trans ((List.suffix_append _ _).trans (List.suffix_append _ _)).isInfix

end Text

/-! ## Identifiers and literals -/

namespace Program

open Text

def Identifier (name : String) : Prop := name.toList.all Event.isIdentChar = true

instance (name : String) : Decidable (Identifier name) := inferInstanceAs (Decidable (_ = true))

theorem Identifier.not_mem {name : String} (h : Identifier name) {c : Char} (other : Event.isIdentChar c = false) :
    c ∉ name.toList := by
  intro member
  rw [List.all_eq_true.mp h c member] at other
  cases other

theorem Identifier.unbroken {name : String} (h : Identifier name) : Unbroken name := h.not_mem (by decide)

theorem identifier_append {a b : String} : Identifier (a ++ b) ↔ Identifier a ∧ Identifier b := by
  rw [Identifier, String.toList_append, List.all_append, Bool.and_eq_true]
  rfl

theorem identifier_of_alphanumeric {name : String} (h : Alphanumeric name.toList) : Identifier name := by
  refine List.all_eq_true.mpr fun c hc => ?_
  simp [Event.isIdentChar, h c hc]

theorem identifier_ident (text : String) : Identifier (ident text) := by
  refine List.all_eq_true.mpr fun c hc => ?_
  rw [ident, String.toList_map] at hc
  obtain ⟨d, -, rfl⟩ := List.mem_map.mp hc
  by_cases kept : (isAlphanumeric d || d = '_') = true
  · rw [if_pos kept]
    simp [Event.isIdentChar, kept]
  · rw [if_neg kept]
    rfl

/-- A literal has its line breaks escaped. -/
theorem unbroken_literal (text : String) : Unbroken (literal text) := by
  have characters (c : Char) : '\n' ∉ Json.escaped c := by
    unfold Json.escaped
    iterate 7
      split
      · decide
    split
    · next small =>
      have digits : ∀ n < 16, Json.hexDigit n ≠ '\n' := by decide
      simp [(digits (c.toNat / 16) (by omega)).symm, (digits (c.toNat % 16) (by omega)).symm]
    · next newline _ _ _ _ _ =>
      simp [Ne.symm newline]
  intro member
  rw [literal, Json.quote, String.toList_ofList, Json.quoted] at member
  simp [characters] at member

end Program

theorem identifier_event (e : Event) : Program.Identifier e.ident := by
  refine List.all_eq_true.mpr fun c hc => ?_
  rw [Event.ident, String.toList_map] at hc
  obtain ⟨d, -, rfl⟩ := List.mem_map.mp hc
  by_cases kept : Event.isIdentChar d = true
  · rw [if_pos kept]
    exact kept
  · rw [if_neg kept]
    rfl

theorem unbroken_write (l : NumberLayout) (f : BinaryFormat) (x : Binary) : '\n' ∉ l.write f x := by
  have digits (n : Nat) : '\n' ∉ NumberLayout.digitsOf n := fun member =>
    absurd (Outline.digits_toDigits _ _ member) (by decide)
  have zeros (n : Nat) : '\n' ∉ NumberLayout.zeros n := fun member => absurd (List.eq_of_mem_replicate member) (by decide)
  have plain (n : Nat) (exponent : Int) : '\n' ∉ l.plain (NumberLayout.digitsOf n) exponent := by
    have before (k : Nat) : '\n' ∉ (NumberLayout.digitsOf n).take k := fun member => digits n (List.mem_of_mem_take member)
    have behind (k : Nat) : '\n' ∉ (NumberLayout.digitsOf n).drop k := fun member => digits n (List.mem_of_mem_drop member)
    unfold NumberLayout.plain
    dsimp only
    split
    · cases l.point <;> simp [digits, zeros]
    · split <;> simp [digits, zeros, before, behind]
  have scientific (n : Nat) (power : Int) : '\n' ∉ NumberLayout.scientific (NumberLayout.digitsOf n) power := by
    have all := digits n
    have sign : '\n' ≠ if power < 0 then '-' else '+' := by split <;> decide
    unfold NumberLayout.scientific
    cases written : NumberLayout.digitsOf n with
    | nil => simp [digits, sign]
    | cons d rest =>
      rw [written] at all
      cases rest <;> simp_all
  cases x with
  | infinite negative => cases negative <;> simp [NumberLayout.write]
  | finite negative mantissa exponent =>
    have sign : '\n' ∉ if negative then ['-'] else [] := by cases negative <;> simp
    rw [NumberLayout.write]
    dsimp only
    by_cases zero : mantissa = 0
    · rw [if_pos zero, List.mem_append, not_or]
      refine ⟨sign, ?_⟩
      cases l.point <;> simp
    · rw [if_neg zero, List.mem_append, not_or]
      refine ⟨sign, ?_⟩
      split
      · exact plain _ _
      · exact scientific _ _

end EventFlow
