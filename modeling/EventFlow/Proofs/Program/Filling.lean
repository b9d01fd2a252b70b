/-
  EventFlow.Proofs.Program.Filling — a template filled once, and place after place.

  Filled once, each place of the template gets its own value, and values are not looked at again
  (`fillOnce`). The places are filled one after the other instead, so a place that a value brings along is
  filled as well, if its turn comes later.

  Both ways write the same for each part of the template or go apart within the part (`Strays`): what is
  filled begins with an underscore, and no value does. So two codes are the same only if all their parts
  are (`StraysUnless`), and a part is the same just if its value brings no later place along.

  Proved:
  - `fill_straysUnless`: filling one place after the other, in a text that may bring them along.
  - `fillOnce_piecewise`: filled once, a text goes on from each mark of the template as if it began there.
  - `fillOnce_part` / `fill_part`: what the two ways write for a part of the template.
-/

import EventFlow.Proofs.Program.Code
import EventFlow.Proofs.Program.Families
import Mathlib.Data.List.Find

namespace EventFlow

namespace Text

/-- The second text leaves the first one at an underscore. -/
def Strays (text other : List Char) : Prop :=
  ∃ front c rest rest', text = front ++ '_' :: rest ∧ other = front ++ c :: rest' ∧ c ≠ '_'

def StraysUnless (same : Prop) (text other : List Char) : Prop :=
  same ∧ other = text ∨ ¬ same ∧ Strays text other

variable {text other text' other' : List Char} {same same' : Prop}

theorem Strays.ne (strays : Strays text other) : other ≠ text := by
  obtain ⟨front, c, rest, rest', rfl, rfl, new⟩ := strays
  intro equal
  exact new (List.cons.inj (List.append_cancel_left equal)).1

theorem Strays.append (strays : Strays text other) (rest rest' : List Char) : Strays (text ++ rest) (other ++ rest') := by
  obtain ⟨front, c, behind, behind', rfl, rfl, new⟩ := strays
  exact ⟨front, c, behind ++ rest, behind' ++ rest', by simp, by simp, new⟩

theorem Strays.prepend (strays : Strays text other) (front : List Char) : Strays (front ++ text) (front ++ other) := by
  obtain ⟨between, c, rest, rest', rfl, rfl, new⟩ := strays
  exact ⟨front ++ between, c, rest, rest', by simp, by simp, new⟩

namespace StraysUnless

theorem eq_iff (h : StraysUnless same text other) : other = text ↔ same := by
  rcases h with ⟨holds, equal⟩ | ⟨fails, strays⟩
  · exact iff_of_true equal holds
  · exact iff_of_false strays.ne fails

theorem congr (h : StraysUnless same text other) (agree : same ↔ same') : StraysUnless same' text other :=
  propext agree ▸ h

theorem refl (holds : same) (text : List Char) : StraysUnless same text text := .inl ⟨holds, rfl⟩

theorem append (h : StraysUnless same text other) (h' : StraysUnless same' text' other') :
    StraysUnless (same ∧ same') (text ++ text') (other ++ other') := by
  rcases h with ⟨holds, rfl⟩ | ⟨fails, strays⟩
  · rcases h' with ⟨holds', rfl⟩ | ⟨fails', strays'⟩
    · exact .inl ⟨⟨holds, holds'⟩, rfl⟩
    · exact .inr ⟨fun both => fails' both.2, strays'.prepend _⟩
  · exact .inr ⟨fun both => fails both.1, strays.append _ _⟩

/-- Lines are the same if each line is. -/
theorem intercalate {ι : Type} (sep : List Char) (line line' : ι → List Char) (kept : ι → Prop) (lines : List ι)
    (each : ∀ i ∈ lines, StraysUnless (kept i) (line i) (line' i)) :
    StraysUnless (∀ i ∈ lines, kept i) (sep.intercalate (lines.map line)) (sep.intercalate (lines.map line')) := by
  induction lines with
  | nil => exact refl nofun _
  | cons i lines ih =>
    have first := each i List.mem_cons_self
    have others := ih fun j hj => each j (List.mem_cons_of_mem _ hj)
    cases lines with
    | nil =>
      have only : kept i ↔ ∀ j ∈ [i], kept j := by simp
      simpa using first.congr only
    | cons next lines =>
      simp only [List.map_cons, List.intercalate_cons_cons] at others ⊢
      refine ((first.append (refl True.intro sep)).append others).congr ?_
      simp

end StraysUnless

/-! ## One place after the other -/

variable {needle value : List Char}

theorem replaceAll_strays {c : Char} (new : c ≠ '_') (found : '_' :: needle <:+: text) :
    Strays text (replaceAll ('_' :: needle) (c :: value) text) := by
  unfold replaceAll
  induction text with
  | nil => simp at found
  | cons d text ih =>
    rw [replaceFrom]
    split
    case isTrue here =>
      obtain ⟨rest, begins⟩ := List.isPrefixOf_iff_prefix.mp here
      exact ⟨[], c, needle ++ rest, _, begins.symm, rfl, new⟩
    case isFalse elsewhere =>
      have further := (List.infix_cons_iff.mp found).resolve_left fun here =>
        elsewhere (List.isPrefixOf_iff_prefix.mpr here)
      exact (ih further).prepend [d]

/-- What has left a text does not come back. -/
theorem Strays.replaceAll {c : Char} (new : c ≠ '_') (strays : Strays text other) :
    Strays text (replaceAll ('_' :: needle) (c :: value) other) := by
  obtain ⟨front, d, rest, rest', rfl, rfl, foreign⟩ := strays
  unfold Text.replaceAll
  induction front with
  | nil =>
    have elsewhere : ('_' :: needle).isPrefixOf (d :: rest') = false := by
      rw [List.isPrefixOf, beq_eq_false_iff_ne.mpr foreign.symm, Bool.false_and]
    rw [List.nil_append, List.nil_append, replaceFrom, elsewhere, if_neg Bool.false_ne_true]
    exact ⟨[], d, rest, _, rfl, rfl, foreign⟩
  | cons e front ih =>
    rw [List.cons_append, List.cons_append, replaceFrom]
    split
    case isTrue here =>
      obtain ⟨behind, begins⟩ := List.isPrefixOf_iff_prefix.mp here
      obtain rfl : '_' = e := (List.cons.inj begins).1
      exact ⟨[], c, front ++ '_' :: rest, _, rfl, rfl, new⟩
    case isFalse elsewhere => exact ih.prepend [e]

end Text

open Text

namespace IndexTool

def Fresh (places : List (String × String)) : Prop := ∀ p ∈ places, ∃ c rest, p.2.toList = c :: rest ∧ c ≠ '_'

/-- A text stays as it is just if it brings no place along. -/
theorem fill_straysUnless {places : List (String × String)} (marked : Marked places) (fresh : Fresh places) (text : List Char) :
    StraysUnless (∀ p ∈ places, ¬ p.1.toList <:+: text) text (fill places text) := by
  by_cases absent : ∀ p ∈ places, ¬ p.1.toList <:+: text
  · exact .inl ⟨absent, fill_of_not_infix absent⟩
  refine .inr ⟨absent, ?_⟩
  have stays (places : List (String × String)) (marked : Marked places) (fresh : Fresh places) {other : List Char}
      (strays : Strays text other) : Strays text (fill places other) := by
    induction places generalizing other with
    | nil => exact strays
    | cons p places ih =>
      obtain ⟨mark, opened⟩ := marked.opened p List.mem_cons_self
      obtain ⟨c, value, starts, new⟩ := fresh p List.mem_cons_self
      rw [fill_cons, opened, starts]
      exact ih marked.tail (fun q hq => fresh q (List.mem_cons_of_mem _ hq)) (strays.replaceAll new)
  induction places with
  | nil => exact absurd nofun absent
  | cons p places ih =>
    obtain ⟨mark, opened⟩ := marked.opened p List.mem_cons_self
    obtain ⟨c, value, starts, new⟩ := fresh p List.mem_cons_self
    have fresh' : Fresh places := fun q hq => fresh q (List.mem_cons_of_mem _ hq)
    by_cases found : p.1.toList <:+: text
    · rw [opened] at found
      rw [fill_cons, opened, starts]
      exact stays places marked.tail fresh' (replaceAll_strays new found)
    · rw [fill_cons, Text.replaceAll_of_not_infix found]
      refine ih marked.tail fresh' fun others => absent fun q hq => ?_
      rcases List.mem_cons.mp hq with rfl | hq
      · exact found
      · exact others q hq

/-! ## All places at once -/

/-- At each position the place that begins there is filled with its value, and the text goes on behind the
    place. The counter skips the rest of a place. -/
def fillOnceFrom (places : List (String × String)) : Nat → List Char → List Char
  | _, [] => []
  | skip + 1, _ :: rest => fillOnceFrom places skip rest
  | 0, c :: rest =>
    match places.find? fun p => p.1.toList.isPrefixOf (c :: rest) with
    | some p => p.2.toList ++ fillOnceFrom places (p.1.toList.length - 1) rest
    | none => c :: fillOnceFrom places 0 rest

/-- The text with each place in it replaced by its value. -/
def fillOnce (places : List (String × String)) (text : List Char) : List Char := fillOnceFrom places 0 text

/-- The code of a tool as its template says. -/
def filledOnce (t : IndexTool) (topK : Nat) : String := String.ofList (fillOnce (t.places topK) template.toList)

/-- What belongs at a part of the template: the value of a place, and other parts themselves. -/
def valueOf (places : List (String × String)) (part : String) : String := ((places.find? (·.1 = part)).map (·.2)).getD part

def later (places : List (String × String)) (part : String) : List (String × String) :=
  (places.dropWhile (·.1 ≠ part)).drop 1

variable {places : List (String × String)}

theorem fillOnceFrom_append {c : Char} (foreign : ∀ p ∈ places, c ∉ p.1.toList) (rest : List Char) {front : List Char}
    {skip : Nat} (fits : skip ≤ front.length) :
    fillOnceFrom places skip (front ++ c :: rest) = fillOnceFrom places skip front ++ fillOnceFrom places 0 (c :: rest) := by
  induction front generalizing skip with
  | nil =>
    obtain rfl : skip = 0 := by simpa using fits
    rfl
  | cons d front ih =>
    cases skip with
    | succ skip => exact ih (Nat.le_of_succ_le_succ fits)
    | zero =>
      have here : places.find? (fun p => p.1.toList.isPrefixOf (d :: (front ++ c :: rest))) =
          places.find? (fun p => p.1.toList.isPrefixOf (d :: front)) :=
        List.find?_congr fun p hp => by rw [← List.cons_append, isPrefixOf_append_cons (foreign p hp)]
      rw [List.cons_append, fillOnceFrom, here, fillOnceFrom]
      split
      · next p found =>
        have begins := List.find?_some (p := fun p : String × String => p.1.toList.isPrefixOf (d :: front)) found
        have length := (List.isPrefixOf_iff_prefix.mp begins).length_le
        rw [List.length_cons] at length
        rw [ih (by omega), List.append_assoc]
      · rw [ih (Nat.zero_le _), List.cons_append]

theorem fillOnce_loose (marked : Marked places) {text : List Char} (loose : Text.loose text = true) (rest : List Char) :
    fillOnce places (text ++ rest) = text ++ fillOnce places rest := by
  unfold fillOnce
  induction text with
  | nil => rfl
  | cons c text ih =>
    have none : places.find? (fun p => p.1.toList.isPrefixOf (c :: (text ++ rest))) = none := by
      refine List.find?_eq_none.mpr fun p hp => ?_
      obtain ⟨mark, opened⟩ := marked.opened p hp
      rw [opened, isPrefixOf_loose loose]
      exact Bool.false_ne_true
    rw [List.cons_append, fillOnceFrom, none, ih (loose_tail loose)]
    rfl

theorem fillOnce_piecewise (marked : Marked places) : Piecewise (fillOnce places) where
  nil := rfl
  split {text} apart front rest := by
    cases text with
    | nil => cases apart
    | cons c text =>
      obtain ⟨foreign, loose⟩ : ¬ inPlace c = true ∧ Text.loose (c :: text) = true := by
        simpa only [Text.apart, Bool.and_eq_true, Bool.not_eq_true', Bool.not_eq_true] using apart
      have absent : ∀ p ∈ places, c ∉ p.1.toList := fun p hp member => foreign (marked.capital p hp c member)
      rw [List.cons_append, fillOnce, fillOnceFrom_append absent _ (Nat.zero_le _)]
      exact congrArg _ (fillOnce_loose marked loose rest)

theorem fillOnce_of_not_infix {text : List Char} (absent : ∀ p ∈ places, ¬ p.1.toList <:+: text) :
    fillOnce places text = text := by
  unfold fillOnce
  induction text with
  | nil => rfl
  | cons c text ih =>
    have none : places.find? (fun p => p.1.toList.isPrefixOf (c :: text)) = none :=
      List.find?_eq_none.mpr fun p hp here => absent p hp (List.isPrefixOf_iff_prefix.mp here).isInfix
    rw [fillOnceFrom, none, ih fun p hp inside => absent p hp (List.infix_cons inside)]

theorem fillOnceFrom_skipped {skip : Nat} {text : List Char} (fits : text.length ≤ skip) :
    fillOnceFrom places skip text = [] := by
  induction text generalizing skip with
  | nil => rw [fillOnceFrom]
  | cons c text ih =>
    cases skip with
    | zero => cases fits
    | succ skip => exact ih (Nat.le_of_succ_le_succ fits)

/-! ## The parts of the template -/

/-- A part gets its value when all places are filled at once. -/
theorem fillOnce_part (marked : Marked places) {part : String}
    (others : ∀ p ∈ places, p.1 ≠ part → ¬ p.1.toList <:+: part.toList) :
    fillOnce places part.toList = (valueOf places part).toList := by
  unfold valueOf
  cases found : places.find? (·.1 = part) with
  | none =>
    refine fillOnce_of_not_infix fun p hp => others p hp ?_
    simpa using List.find?_eq_none.mp found p hp
  | some p =>
    obtain rfl : p.1 = part := by simpa using List.find?_some found
    obtain ⟨mark, opened⟩ := marked.opened p (List.mem_of_find?_eq_some found)
    have here : places.find? (fun q => q.1.toList.isPrefixOf p.1.toList) = some p := by
      rw [← found]
      refine List.find?_congr fun q hq => ?_
      by_cases same : q.1 = p.1
      · simp [same]
      · have other : q.1.toList.isPrefixOf p.1.toList = false := by
          rw [← Bool.not_eq_true, List.isPrefixOf_iff_prefix]
          exact fun begins => others q hq same begins.isInfix
        simpa [same] using other
    rw [opened] at here
    rw [opened, fillOnce, fillOnceFrom, here]
    simp [opened, fillOnceFrom_skipped]

/-- A part gets its value when the places are filled one after the other, and the value stays as it is just if it
    brings none of the later places along. -/
theorem fill_part (marked : Marked places) (fresh : Fresh places) {part : String}
    (others : ∀ p ∈ places, p.1 ≠ part → ¬ p.1.toList <:+: part.toList) :
    StraysUnless (∀ p ∈ later places part, ¬ p.1.toList <:+: (valueOf places part).toList)
      (valueOf places part).toList (fill places part.toList) := by
  induction places with
  | nil => exact .refl nofun _
  | cons p places ih =>
    have fresh' : Fresh places := fun q hq => fresh q (List.mem_cons_of_mem _ hq)
    by_cases same : p.1 = part
    · subst same
      obtain ⟨mark, opened⟩ := marked.opened p List.mem_cons_self
      have value : valueOf (p :: places) p.1 = p.2 := by simp [valueOf]
      have behind : later (p :: places) p.1 = places := by simp [later]
      rw [value, behind, fill_cons, Text.replaceAll_self (by simp [opened])]
      exact fill_straysUnless marked.tail fresh' _
    · have value : valueOf (p :: places) part = valueOf places part := by simp [valueOf, same]
      have behind : later (p :: places) part = later places part := by simp [later, same]
      rw [value, behind, fill_cons, Text.replaceAll_of_not_infix (others p List.mem_cons_self same)]
      exact ih marked.tail fresh' fun q hq => others q (List.mem_cons_of_mem _ hq)

end IndexTool
end EventFlow
