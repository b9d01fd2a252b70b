/-
  EventFlow.Proofs.Json.Text — texts and numbers are read as they were written.

  A text in quotes is read back whatever its characters are. A number may be followed by what
  follows a value, so it is enough that the number alone is read back (`JsonNumber.ReadsBack`).
  Integers of 64 bits are read back; `Proofs.Json.Number` adds the doubles.

  Proved:
  - `scanText_quoted`: a text in quotes, and what follows it.
  - `scanValue_number`: a number that is read alone is read wherever it stands.
  - `readsBack_int`: integers.
-/

import EventFlow.Json.Printer
import EventFlow.Json.Scanner
import Mathlib.Data.List.DropRight
import Mathlib.Data.List.TakeWhile

namespace EventFlow

/-! ## Texts -/

namespace Outline

theorem hexUnit?_control {n : Nat} (small : n < 32) :
    hexUnit? '0' '0' (Json.hexDigit (n / 16)) (Json.hexDigit (n % 16)) = some n := by
  have all : ∀ n < 32, hexUnit? '0' '0' (Json.hexDigit (n / 16)) (Json.hexDigit (n % 16)) = some n := by decide
  exact all n small

/-- A character that stands for itself is neither a quote nor an escape nor a control character. -/
theorem readText_plain {c : Char} (quote : c ≠ '"') (escape : c ≠ '\\') (plain : ¬c.toNat < 32) (acc rest : List Char) :
    readText acc (c :: rest) = readText (c :: acc) rest := by
  rw [readText.eq_def]
  split
  case h_1 same => cases same
  case h_2 same => exact absurd (List.cons.inj same).1 quote
  case h_7 same => cases same; exact if_neg plain
  all_goals
    next same => exact absurd (List.cons.inj same).1 escape

theorem skipText_plain {c : Char} (quote : c ≠ '"') (escape : c ≠ '\\') (plain : ¬c.toNat < 32) (rest : List Char) :
    skipText (c :: rest) = skipText rest := by
  rw [skipText.eq_def]
  split
  case h_1 same => cases same
  case h_2 same => exact absurd (List.cons.inj same).1 quote
  case h_7 same => cases same; exact if_neg plain
  all_goals
    next same => exact absurd (List.cons.inj same).1 escape

/-- What is written for a character is read as that character. -/
theorem readText_escaped (c : Char) (acc rest : List Char) :
    readText acc (Json.escaped c ++ rest) = readText (c :: acc) rest := by
  unfold Json.escaped
  split
  · next h => subst h; rfl
  split
  · next h => subst h; rfl
  split
  · next h => subst h; rfl
  split
  · next h => subst h; rfl
  split
  · next h => subst h; rfl
  split
  · next h =>
    obtain rfl : Char.ofNat 8 = c := by rw [← h, Char.ofNat_toNat]
    rfl
  split
  · next h =>
    obtain rfl : Char.ofNat 12 = c := by rw [← h, Char.ofNat_toNat]
    rfl
  split
  · next small =>
    have lone : isTrailing c.toNat = false ∧ isLeading c.toNat = false := by
      simp only [isTrailing, isLeading, Bool.and_eq_false_iff, decide_eq_false_iff_not]
      omega
    show readText acc ('\\' :: 'u' :: '0' :: '0' :: _ :: _ :: rest) = _
    rw [readText, hexUnit?_control small]
    simp only [lone, Bool.false_eq_true, if_false, Char.ofNat_toNat]
  · next quote escape _ _ _ _ _ plain => exact readText_plain quote escape plain acc rest

theorem skipText_escaped (c : Char) (rest : List Char) : skipText (Json.escaped c ++ rest) = skipText rest := by
  unfold Json.escaped
  iterate 7
    split
    · rfl
  split
  · next small =>
    show skipText ('\\' :: 'u' :: '0' :: '0' :: _ :: _ :: rest) = _
    rw [skipText, hexUnit?_control small]
    rfl
  · next quote escape _ _ _ _ _ plain => exact skipText_plain quote escape plain rest

theorem readText_quoted (cs acc rest : List Char) :
    readText acc (cs.flatMap Json.escaped ++ '"' :: rest) = .ok (String.ofList (acc.reverse ++ cs)) := by
  induction cs generalizing acc with
  | nil => rw [List.flatMap_nil, List.append_nil]; rfl
  | cons c cs ih =>
    rw [List.flatMap_cons, List.append_assoc, readText_escaped, ih, List.reverse_cons, List.append_assoc]
    rfl

theorem skipText_quoted (cs rest : List Char) : skipText (cs.flatMap Json.escaped ++ '"' :: rest) = .ok rest := by
  induction cs with
  | nil => rfl
  | cons c cs ih => rw [List.flatMap_cons, List.append_assoc, skipText_escaped, ih]

/-- A text in quotes, from inside its quotes. -/
theorem scanText_quoted (s : String) (rest : List Char) :
    scanText (s.toList.flatMap Json.escaped ++ '"' :: rest) = (.str s, some rest) := by
  rw [scanText, skipText_quoted, readText_quoted, List.reverse_nil, List.nil_append, String.ofList_toList]

/-! ## Numbers -/

/-- What may stand behind a value: nothing that goes on with a number. -/
def Stops (rest : List Char) : Prop :=
  ∀ c ∈ rest.head?, Text.isDigit c = false ∧ c ≠ '.' ∧ c ≠ 'e' ∧ c ≠ 'E'

section

variable {rest : List Char} (stops : Stops rest)

include stops

theorem Stops.digits : rest.takeWhile Text.isDigit = [] ∧ rest.dropWhile Text.isDigit = rest := by
  cases rest with
  | nil => exact ⟨rfl, rfl⟩
  | cons c rest =>
    have other := (stops c rfl).1
    rw [List.takeWhile_cons, List.dropWhile_cons, other]
    exact ⟨rfl, rfl⟩

theorem Stops.takeWhile (s : List Char) : (s ++ rest).takeWhile Text.isDigit = s.takeWhile Text.isDigit := by
  rw [List.takeWhile_append, stops.digits.1, List.append_nil]
  split
  · next whole => rw [(List.takeWhile_prefix _).eq_of_length whole]
  · rfl

theorem Stops.dropWhile (s : List Char) : (s ++ rest).dropWhile Text.isDigit = s.dropWhile Text.isDigit ++ rest := by
  rw [List.dropWhile_append, stops.digits.2]
  split
  · next empty => rw [List.isEmpty_iff.mp empty, List.nil_append]
  · rfl

/-- Nothing that may stand behind a value goes on with the exponent of a number. -/
theorem scanExponent_append {lead : Char} {negative : Bool} {digits places : Nat} {s r : List Char} {v : Outline}
    (h : scanExponent lead negative digits places s = (v, some r)) :
    scanExponent lead negative digits places (s ++ rest) = (v, some (r ++ rest)) := by
  -- behind the sign
  have power {down : Bool} {s : List Char}
      (h : (if (s.takeWhile Text.isDigit).isEmpty then cutNumber lead (s.dropWhile Text.isDigit)
        else (decimalOf negative digits ((if down then -(digitsValue 0 (s.takeWhile Text.isDigit) : Int)
          else digitsValue 0 (s.takeWhile Text.isDigit)) - places), some (s.dropWhile Text.isDigit))) = (v, some r)) :
      (if ((s ++ rest).takeWhile Text.isDigit).isEmpty then cutNumber lead ((s ++ rest).dropWhile Text.isDigit)
        else (decimalOf negative digits ((if down then -(digitsValue 0 ((s ++ rest).takeWhile Text.isDigit) : Int)
          else digitsValue 0 ((s ++ rest).takeWhile Text.isDigit)) - places),
          some ((s ++ rest).dropWhile Text.isDigit))) = (v, some (r ++ rest)) := by
    rw [stops.takeWhile, stops.dropWhile]
    split at h
    · cases h
    · next some => rw [if_neg some]; cases h; rfl
  cases s with
  | nil => cases h
  | cons c s =>
    unfold scanExponent at h ⊢
    simp only [List.cons_append] at h ⊢
    split at h
    · next same => cases same; exact power h
    · next same => cases same; exact power h
    · next plus minus =>
      split
      · next same => exact absurd (List.cons.inj same).1 fun e => plus s (e ▸ rfl)
      · next same => exact absurd (List.cons.inj same).1 fun e => minus s (e ▸ rfl)
      · exact power h

theorem scanFraction_append {lead : Char} {negative : Bool} {whole : Nat} {s r : List Char} {v : Outline}
    (h : scanFraction lead negative whole s = (v, some r)) :
    scanFraction lead negative whole (s ++ rest) = (v, some (r ++ rest)) := by
  have inside {c : Char} (goesOn : c = '.' ∨ c = 'e' ∨ c = 'E') {x t : List Char} (same : x ++ rest = c :: t) :
      ∃ t, x = c :: t := by
    cases x with
    | nil =>
      rw [List.nil_append] at same
      subst same
      obtain ⟨-, dot, small, large⟩ := stops c rfl
      rcases goesOn with rfl | rfl | rfl
      · exact absurd rfl dot
      · exact absurd rfl small
      · exact absurd rfl large
    | cons d x => exact ⟨x, (List.cons.inj same).1 ▸ rfl⟩
  unfold scanFraction at h ⊢
  split at h
  · next t =>
    simp only [List.cons_append, stops.takeWhile, stops.dropWhile]
    simp only at h
    split at h
    · cases h
    · next some =>
      rw [if_neg some]
      split at h
      · next same => rw [same]; exact scanExponent_append stops h
      · next same => rw [same]; exact scanExponent_append stops h
      · next small large =>
        cases h
        split
        · next same => obtain ⟨t, ht⟩ := inside (by simp) same; exact absurd ht (small t)
        · next same => obtain ⟨t, ht⟩ := inside (by simp) same; exact absurd ht (large t)
        · rfl
  · exact scanExponent_append stops h
  · exact scanExponent_append stops h
  · next dot small large =>
    cases h
    split
    · next same => obtain ⟨t, ht⟩ := inside (by simp) same; exact absurd ht (dot t)
    · next same => obtain ⟨t, ht⟩ := inside (by simp) same; exact absurd ht (small t)
    · next same => obtain ⟨t, ht⟩ := inside (by simp) same; exact absurd ht (large t)
    · rfl

/-- A number is the same whatever stands behind it. -/
theorem scanNumber_append {lead : Char} {negative : Bool} {s r : List Char} {v : Outline}
    (h : scanNumber lead negative s = (v, some r)) :
    scanNumber lead negative (s ++ rest) = (v, some (r ++ rest)) := by
  unfold scanNumber at h ⊢
  simp only [stops.takeWhile, stops.dropWhile]
  simp only at h
  split at h
  · cases h
  · cases h
  · exact scanFraction_append stops h

end

/-- What reads as a number begins with a digit. -/
theorem scanNumber_begins {lead : Char} {negative : Bool} {s r : List Char} {v : Outline}
    (h : scanNumber lead negative s = (v, some r)) : ∃ c t, s = c :: t ∧ Text.isDigit c = true := by
  cases s with
  | nil => cases h
  | cons c t =>
    cases digit : Text.isDigit c with
    | true => exact ⟨c, t, rfl, digit⟩
    | false =>
      have none : (c :: t).takeWhile Text.isDigit = [] := by rw [List.takeWhile_cons, digit]; rfl
      unfold scanNumber at h
      simp only [none] at h
      cases h

theorem scanWord_ne_num {lead : Char} {value : Outline} (other : ∀ n, value ≠ .num n) (word s : List Char)
    (n : JsonNumber) : (scanWord lead value word s).1 ≠ .num n := by
  induction word generalizing s with
  | nil => exact other n
  | cons w word ih =>
    cases s with
    | nil => exact fun h => by cases h
    | cons c s =>
      unfold scanWord
      split
      · exact ih s
      · exact fun h => by cases h

theorem scanText_ne_num (s : List Char) (n : JsonNumber) : (scanText s).1 ≠ .num n := by
  unfold scanText
  repeat' split
  all_goals exact fun h => by cases h

theorem skipSpace_append {c : Char} {s t : List Char} (h : skipSpace s = c :: t) (rest : List Char) :
    skipSpace (s ++ rest) = c :: (t ++ rest) := by
  rw [skipSpace, List.dropWhile_append, ← skipSpace, h, List.isEmpty_cons, if_neg Bool.false_ne_true, List.cons_append]

theorem skipSpace_digit {c : Char} (digit : Text.isDigit c = true) (t : List Char) : skipSpace (c :: t) = c :: t := by
  have space : isSpace c = false := by
    cases blank : isSpace c with
    | false => rfl
    | true =>
      simp only [isSpace, Bool.or_eq_true, decide_eq_true_eq] at blank
      rcases blank with ((rfl | rfl) | rfl) | rfl <;> exact absurd digit (by decide)
  rw [skipSpace, List.dropWhile_cons, space]
  rfl

theorem scanValue_digit {c : Char} {s t : List Char} (hs : skipSpace s = c :: t) (digit : Text.isDigit c)
    (fuel depth : Nat) : scanValue (fuel + 1) depth s = scanNumber c false (c :: t) := by
  rw [scanValue, hs]
  split
  case h_9 same => cases same; rw [if_pos digit]
  all_goals
    next same => cases same; try exact absurd digit (by decide)

/-- A number with its sign. -/
theorem scan_signed {negative : Bool} {body : List Char} {v : Outline}
    (h : ∀ lead, scanNumber lead negative body = (v, some [])) :
    scan ((if negative then ['-'] else []) ++ body) = (v, some []) := by
  obtain ⟨c, t, rfl, digit⟩ := scanNumber_begins (h '-')
  cases negative with
  | false => exact (scanValue_digit (skipSpace_digit digit t) digit _ 0).trans (h c)
  | true =>
    show scanValue (_ + 1) 0 ('-' :: c :: t) = _
    rw [scanValue]
    exact h '-'

/-- A number is read wherever it stands, not only as a whole text. -/
theorem scanValue_number {fuel fuel' depth depth' : Nat} {s r rest : List Char} {n : JsonNumber} (stops : Stops rest)
    (h : scanValue (fuel + 1) depth s = (.num n, some r)) :
    scanValue (fuel' + 1) depth' (s ++ rest) = (.num n, some (r ++ rest)) := by
  cases hs : skipSpace s with
  | nil => rw [scanValue, hs] at h; cases h
  | cons c t =>
    have space := skipSpace_append hs rest
    by_cases digit : Text.isDigit c
    · rw [scanValue_digit hs digit] at h
      rw [scanValue_digit space digit]
      exact scanNumber_append stops h
    · rw [scanValue, hs] at h
      rw [scanValue, space]
      -- Only a sign or a digit begins a number.
      split at h
      case h_1 => cases h
      case h_2 => exact absurd (congrArg Prod.fst h) (scanWord_ne_num (by simp) _ _ n)
      case h_3 => exact absurd (congrArg Prod.fst h) (scanWord_ne_num (by simp) _ _ n)
      case h_4 => exact absurd (congrArg Prod.fst h) (scanWord_ne_num (by simp) _ _ n)
      case h_5 => exact absurd (congrArg Prod.fst h) (scanText_ne_num _ n)
      case h_6 same => cases same; exact scanNumber_append stops h
      case h_7 => cases h
      case h_8 => cases h
      case h_9 same => cases same; rw [if_neg digit] at h; cases h

/-! ### Integers -/

theorem digitsValue_toDigits (n : Nat) : digitsValue 0 (Nat.toDigits 10 n) = n := by
  have same (ds : List Char) (acc : Nat) : digitsValue acc ds = Nat.ofDigitChars 10 ds acc := by
    rw [digitsValue, Nat.ofDigitChars]
    congr 1
    funext acc c
    rw [Nat.mul_comm]
    rfl
  rw [same, Nat.ofDigitChars_ten_toDigits]

theorem toDigits_ne_zero_cons {n : Nat} (pos : 0 < n) (t : List Char) : Nat.toDigits 10 n ≠ '0' :: t := by
  induction n using Nat.strongRecOn generalizing t with
  | _ n ih =>
    rw [Nat.toDigits_eq_if (by decide)]
    split
    · next small =>
      have digit : ∀ n < 10, 0 < n → Nat.digitChar n ≠ '0' := by decide
      exact fun same => digit n small pos (List.cons.inj same).1
    · next large =>
      obtain ⟨c, ds, first⟩ := List.exists_cons_of_ne_nil (Nat.toDigits_ne_nil (n := n / 10) (b := 10))
      intro same
      rw [first] at same
      exact ih (n / 10) (by omega) (by omega) ds (first.trans (by rw [(List.cons.inj same).1]))

/-- The digits of an integer are one number. -/
theorem scanNumber_toDigits (lead : Char) (negative : Bool) (n : Nat) :
    scanNumber lead negative (Nat.toDigits 10 n) = (integerOf negative n, some []) := by
  have digits : ∀ c ∈ Nat.toDigits 10 n, Text.isDigit c = true := fun c member =>
    Nat.isDigit_of_mem_toDigits (by decide) (by decide) member
  have all : (Nat.toDigits 10 n).takeWhile Text.isDigit = Nat.toDigits 10 n := List.takeWhile_eq_self_iff.mpr digits
  have none : (Nat.toDigits 10 n).dropWhile Text.isDigit = [] := List.dropWhile_eq_nil_iff.mpr digits
  unfold scanNumber
  simp only [all, none]
  split
  · next empty => exact absurd empty Nat.toDigits_ne_nil
  · next c t zero =>
    cases n with
    | zero => rw [Nat.toDigits_zero] at zero; cases zero
    | succ n => exact absurd zero (toDigits_ne_zero_cons (Nat.succ_pos n) _)
  · rw [digitsValue_toDigits]
    rfl

end Outline

def JsonNumber.ReadsBack (n : JsonNumber) : Prop := Outline.scan (Json.numberText n) = (.num n, some [])

open Outline in
theorem readsBack_int {z : Int} (low : Int64.minValue.toInt ≤ z) (high : z < UInt64.size) :
    (JsonNumber.int z).ReadsBack := by
  cases z with
  | ofNat n =>
    refine @scan_signed false _ _ fun lead => ?_
    show scanNumber lead false (Nat.toDigits 10 n) = _
    rw [scanNumber_toDigits, integerOf, if_neg Bool.false_ne_true, if_pos (Int.ofNat_lt.mp high)]
    rfl
  | negSucc n =>
    replace low : Int64.minValue.toInt ≤ -((n + 1 : Nat) : Int) := low
    refine @scan_signed true _ _ fun lead => ?_
    show scanNumber lead true (Nat.toDigits 10 (n + 1)) = _
    rw [scanNumber_toDigits, integerOf, if_pos rfl, if_neg (Nat.succ_ne_zero n), if_pos low]
    rfl

end EventFlow
