/-
  EventFlow.Proofs.Json.Number — doubles are read as they were written.

  A double is written as its shortest decimal, set out with a point or with a power of ten. Either way
  the text reads as a decimal of the same value, and that decimal rounds to the double because it lies
  in the double's interval (`Proofs.Binary`).

  Proved:
  - `scanNumber_plain` / `scanNumber_scientific`: the two ways to set out digits.
  - `readsBack_double`: every finite double.
-/

import EventFlow.Proofs.Binary.Shortest
import EventFlow.Proofs.Json.Text

namespace EventFlow

namespace Outline

/-! ## Digits -/

theorem digitsValue_append (acc : Nat) (xs ys : List Char) :
    digitsValue acc (xs ++ ys) = digitsValue (digitsValue acc xs) ys := List.foldl_append

theorem digitsValue_zeros (acc n : Nat) : digitsValue acc (NumberLayout.zeros n) = acc * 10 ^ n := by
  induction n generalizing acc with
  | zero => exact (Nat.mul_one acc).symm
  | succ n ih =>
    have first : digitsValue acc (NumberLayout.zeros (n + 1)) = digitsValue (acc * 10) (NumberLayout.zeros n) := rfl
    rw [first, ih, Nat.pow_succ']
    ring

theorem digits_zeros (n : Nat) : ∀ c ∈ NumberLayout.zeros n, Text.isDigit c = true := by
  intro c member
  rw [List.eq_of_mem_replicate member]
  rfl

theorem digits_toDigits (n : Nat) : ∀ c ∈ Nat.toDigits 10 n, Text.isDigit c = true := by
  intro c member
  exact Nat.isDigit_of_mem_toDigits (by decide) (by decide) member

/-- Where digits end. -/
theorem split_digits {ds rest : List Char} (digits : ∀ c ∈ ds, Text.isDigit c = true)
    (stops : ∀ c ∈ rest.head?, Text.isDigit c = false) :
    (ds ++ rest).takeWhile Text.isDigit = ds ∧ (ds ++ rest).dropWhile Text.isDigit = rest := by
  rw [List.takeWhile_append_of_pos digits, List.dropWhile_append_of_pos digits]
  cases rest with
  | nil => exact ⟨List.append_nil ds, rfl⟩
  | cons c rest =>
    have other : Text.isDigit c = false := stops c rfl
    rw [List.takeWhile_cons, List.dropWhile_cons, other]
    exact ⟨List.append_nil ds, rfl⟩

structure Whole (ds : List Char) : Prop where
  digits : ∀ c ∈ ds, Text.isDigit c = true
  some : ds ≠ []
  first : ∀ c t, ds ≠ '0' :: c :: t

theorem whole_toDigits {n : Nat} (pos : 0 < n) {rest : List Char} (digits : ∀ c ∈ rest, Text.isDigit c = true) :
    Whole (Nat.toDigits 10 n ++ rest) := by
  obtain ⟨c, ds, first⟩ := List.exists_cons_of_ne_nil (Nat.toDigits_ne_nil (n := n) (b := 10))
  have lead : c ≠ '0' := by
    rintro rfl
    exact toDigits_ne_zero_cons pos ds first
  refine ⟨?_, by simp, ?_⟩
  · intro d member
    rcases List.mem_append.mp member with member | member
    · exact digits_toDigits n d member
    · exact digits d member
  · intro d t same
    rw [first] at same
    exact lead (List.cons.inj same).1

theorem whole_zero : Whole ['0'] := ⟨by simp [Text.isDigit], by simp, by simp⟩

theorem Whole.take {ds : List Char} (whole : Whole ds) {k : Nat} (pos : 0 < k) : Whole (ds.take k) := by
  refine ⟨fun c member => whole.digits c (List.mem_of_mem_take member), ?_, ?_⟩
  · rw [ne_eq, List.take_eq_nil_iff]
    rintro (zero | empty)
    · omega
    · exact whole.some empty
  · intro c t same
    have parts := List.take_append_drop k ds
    rw [same] at parts
    exact whole.first c (t ++ ds.drop k) parts.symm

/-! ## Numbers with a point or a power -/

section

variable (lead : Char) (negative : Bool)

theorem scanNumber_whole {ds rest : List Char} (whole : Whole ds) (stops : ∀ c ∈ rest.head?, Text.isDigit c = false) :
    scanNumber lead negative (ds ++ rest) = scanFraction lead negative (digitsValue 0 ds) rest := by
  obtain ⟨taken, left⟩ := split_digits whole.digits stops
  unfold scanNumber
  simp only [taken, left]
  split
  · exact absurd rfl whole.some
  · exact absurd rfl (whole.first _ _)
  · rfl

theorem scanFraction_point {ds : List Char} (digits : ∀ c ∈ ds, Text.isDigit c = true) (some : ds ≠ []) (value : Nat) :
    scanFraction lead negative value ('.' :: ds) =
      (decimalOf negative (digitsValue value ds) (-(ds.length : Int)), Option.some []) := by
  obtain ⟨taken, left⟩ := split_digits digits (by simp : ∀ c ∈ [].head?, Text.isDigit c = false)
  rw [List.append_nil] at taken left
  unfold scanFraction
  simp only [taken, left, List.isEmpty_iff, some, if_false]

theorem scanFraction_pointPower {ds rest : List Char} (digits : ∀ c ∈ ds, Text.isDigit c = true) (some : ds ≠ [])
    (value : Nat) :
    scanFraction lead negative value ('.' :: (ds ++ 'e' :: rest)) =
      scanExponent lead negative (digitsValue value ds) ds.length rest := by
  obtain ⟨taken, left⟩ := split_digits digits (by simp [Text.isDigit] : ∀ c ∈ ('e' :: rest).head?, Text.isDigit c = false)
  unfold scanFraction
  simp only [taken, left, List.isEmpty_iff, some, if_false]

theorem scanExponent_power (value places : Nat) (power : Int) :
    scanExponent lead negative value places ((if power < 0 then '-' else '+') :: NumberLayout.digitsOf power.natAbs) =
      (decimalOf negative value (power - places), some []) := by
  obtain ⟨taken, left⟩ := split_digits (digits_toDigits power.natAbs) (by simp : ∀ c ∈ [].head?, Text.isDigit c = false)
  rw [List.append_nil] at taken left
  have some : (Nat.toDigits 10 power.natAbs).isEmpty = false := List.isEmpty_eq_false_iff.mpr Nat.toDigits_ne_nil
  unfold scanExponent NumberLayout.digitsOf
  by_cases down : power < 0
  · have value : (if true then -(power.natAbs : Int) else power.natAbs) = power := by
      rw [if_pos rfl]
      omega
    simp only [down, if_true, taken, left, some, Bool.false_eq_true, if_false, digitsValue_toDigits]
    rw [← value, if_pos rfl, Int.natAbs_neg, Int.natAbs_natCast]
  · have value : (power.natAbs : Int) = power := by omega
    simp only [down, if_false, taken, left, some, Bool.false_eq_true, digitsValue_toDigits, value]

/-- Digits with a point read as a decimal of the same value. A whole number has one more place. -/
theorem scanNumber_plain {d : Nat} (pos : 0 < d) (exponent : Int) (l : NumberLayout) (point : l.point = true) :
    ∃ digits power, scanNumber lead negative (l.plain (NumberLayout.digitsOf d) exponent) =
      (decimalOf negative digits power, some []) ∧ (power = exponent ∨ power = -1) ∧
      (digits : ℚ) * 10 ^ power = d * 10 ^ exponent := by
  have whole : Whole (Nat.toDigits 10 d) := by
    have whole : Whole (Nat.toDigits 10 d ++ []) := whole_toDigits pos (List.forall_mem_nil _)
    rwa [List.append_nil] at whole
  unfold NumberLayout.plain NumberLayout.digitsOf
  by_cases up : 0 ≤ exponent
  · refine ⟨d * 10 ^ exponent.toNat * 10, -1, ?_, .inr rfl, ?_⟩
    · simp only [up, if_true, point]
      rw [scanNumber_whole lead negative (whole_toDigits pos (digits_zeros _)) (by simp [Text.isDigit]),
        scanFraction_point lead negative (by simp [Text.isDigit]) (by simp), digitsValue_append,
        digitsValue_toDigits, digitsValue_zeros]
      rfl
    · obtain ⟨k, rfl⟩ := Int.eq_ofNat_of_zero_le up
      push_cast
      simp only [Int.toNat_natCast, zpow_natCast]
      rw [zpow_neg_one, mul_assoc, mul_inv_cancel₀ (by norm_num), mul_one]
  · refine ⟨d, exponent, ?_, .inl rfl, rfl⟩
    simp only [up, if_false]
    by_cases inside : 0 < ((Nat.toDigits 10 d).length : Int) + exponent
    · obtain ⟨k, hk⟩ : ∃ k, k = (((Nat.toDigits 10 d).length : Int) + exponent).toNat := ⟨_, rfl⟩
      have behind : (Nat.toDigits 10 d).drop k ≠ [] := by
        rw [ne_eq, List.drop_eq_nil_iff]
        omega
      simp only [inside, if_true, ← hk]
      rw [scanNumber_whole lead negative (whole.take (by omega)) (by simp [Text.isDigit]),
        scanFraction_point lead negative (fun c member => whole.digits c (List.mem_of_mem_drop member)) behind,
        ← digitsValue_append, List.take_append_drop, digitsValue_toDigits, List.length_drop]
      congr 2
      omega
    · obtain ⟨k, hk⟩ : ∃ k, k = (-(((Nat.toDigits 10 d).length : Int) + exponent)).toNat := ⟨_, rfl⟩
      have digits : ∀ c ∈ NumberLayout.zeros k ++ Nat.toDigits 10 d, Text.isDigit c = true := by
        intro c member
        rcases List.mem_append.mp member with member | member
        · exact digits_zeros k c member
        · exact whole.digits c member
      have zero : digitsValue 0 ['0'] * 10 ^ k = 0 := by simp [digitsValue]
      simp only [inside, if_false, ← hk]
      show scanNumber lead negative (['0'] ++ '.' :: (NumberLayout.zeros k ++ Nat.toDigits 10 d)) = _
      rw [scanNumber_whole lead negative whole_zero (by simp [Text.isDigit]),
        scanFraction_point lead negative digits (by simp), digitsValue_append, digitsValue_zeros, zero,
        digitsValue_toDigits, List.length_append, NumberLayout.zeros, List.length_replicate]
      congr 2
      omega

/-- Digits with a power read as the decimal that they stand for. -/
theorem scanNumber_scientific {d : Nat} (pos : 0 < d) (exponent : Int) :
    scanNumber lead negative
      (NumberLayout.scientific (NumberLayout.digitsOf d) (((NumberLayout.digitsOf d).length : Int) + exponent - 1)) =
      (decimalOf negative d exponent, some []) := by
  have whole : Whole (Nat.toDigits 10 d ++ []) := whole_toDigits pos (List.forall_mem_nil _)
  have value := digitsValue_toDigits d
  rw [List.append_nil] at whole
  unfold NumberLayout.digitsOf at *
  unfold NumberLayout.scientific
  cases hds : Nat.toDigits 10 d with
  | nil => exact absurd hds whole.some
  | cons c rest =>
    rw [hds] at whole value
    cases rest with
    | nil =>
      show scanNumber lead negative ([c] ++ 'e' :: _) = _
      rw [scanNumber_whole lead negative whole (by simp [Text.isDigit]), value]
      show scanExponent lead negative d 0 _ = _
      rw [scanExponent_power]
      congr 2
      simp
    | cons c' rest =>
      have one : Whole [c] := whole.take (k := 1) (by decide)
      have behind : ∀ x ∈ c' :: rest, Text.isDigit x = true := fun x member =>
        whole.digits x (List.mem_cons_of_mem c member)
      show scanNumber lead negative ([c] ++ '.' :: ((c' :: rest) ++ 'e' :: _)) = _
      rw [scanNumber_whole lead negative one (by simp [Text.isDigit]), scanFraction_pointPower lead negative behind (by simp),
        ← digitsValue_append, List.singleton_append, value, scanExponent_power]
      congr 2
      simp only [List.length_cons]
      omega

end

end Outline

open Outline BinaryFormat in
/-- A double is read as it was written. -/
theorem readsBack_double {x : Binary} (holds : double.Holds x) (finite : x.isFinite = true) :
    (JsonNumber.double x).ReadsBack := by
  cases x with
  | infinite negative => cases finite
  | finite negative m e =>
    unfold JsonNumber.ReadsBack
    by_cases zero : m = 0
    · obtain rfl : e = 0 := by
        rcases holds with ⟨-, point⟩ | ⟨odd, -⟩
        · exact point
        · omega
      subst zero
      refine scan_signed fun lead => ?_
      show scanNumber lead negative (['0'] ++ ['.', '0']) = _
      rw [scanNumber_whole lead negative whole_zero (by simp [Text.isDigit]),
        scanFraction_point lead negative (by simp [Text.isDigit]) (by simp)]
      rfl
    obtain ⟨inside, low, high⟩ := shortest_spec holds zero
    have pos : 0 < (double.shortest m e).digits := digits_pos (by decide) holds zero inside
    have reads {digits : Nat} {power : Int} (near : -400 ≤ power ∧ power ≤ 400)
        (same : (digits : ℚ) * 10 ^ power = (double.shortest m e).digits * 10 ^ (double.shortest m e).exponent) :
        decimalOf negative digits power = .num (.double (.finite negative m e)) := by
      rw [← same] at inside
      unfold decimalOf
      rw [ofDecimal_eq (by decide) (by decide) holds zero near inside]
      rfl
    simp only [Json.numberText, NumberLayout.write, zero, if_false]
    refine scan_signed fun lead => ?_
    split
    · obtain ⟨digits, power, text, which, same⟩ :=
        scanNumber_plain lead negative pos (double.shortest m e).exponent Json.doubleLayout rfl
      rw [text, reads (by omega) same]
    · rw [scanNumber_scientific lead negative pos, reads ⟨low, high⟩ rfl]

end EventFlow
