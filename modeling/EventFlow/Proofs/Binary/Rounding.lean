/-
  EventFlow.Proofs.Binary.Rounding — what is rounded to a value of a format.

  A value stands for an interval of quotients: half of its last place to either side, and below a
  power of two, where the last place is half as much, a quarter. The ends belong to the interval if
  the last bit is zero. All of them are rounded to the value.

  The value is looked at with all its bits (`Aligned`): then its exponent is the one that rounding
  chooses for every quotient of the interval, but for those right below a power of two.

  Proved:
  - `floorLog2_bounds` / `roundQuotient_of_ratio`: the two steps of rounding, said of the quotient itself.
  - `round_eq`: every quotient in the interval of a value is rounded to the value.
  - `ofBinary_eq` / `ofDecimal_eq`: so a value stays as it is, and a decimal in its interval reads as the value.
-/

import EventFlow.Binary.Shortest
import EventFlow.Binary.Single
import Mathlib.Algebra.Order.Field.Power
import Mathlib.Algebra.Order.Ring.Rat
import Mathlib.Tactic.FieldSimp
import Mathlib.Tactic.Linarith
import Mathlib.Tactic.NormNum
import Mathlib.Tactic.Positivity
import Mathlib.Tactic.Ring

namespace EventFlow

theorem Binary.reduce_mul_two_pow {m : Nat} (odd : m % 2 = 1) (k : Nat) (e : Int) :
    Binary.reduce (m * Nat.pow 2 k) e = (m, e + k) := by
  have some : m ≠ 0 := by omega
  induction k generalizing e with
  | zero =>
    rw [Binary.reduce]
    simp [some, odd]
  | succ k ih =>
    have double : m * Nat.pow 2 (k + 1) = 2 * (m * Nat.pow 2 k) := by
      simp only [Nat.pow_eq, Nat.pow_succ]
      ring
    have half : 2 * (m * Nat.pow 2 k) / 2 = m * Nat.pow 2 k := by omega
    rw [double, Binary.reduce, dif_neg (by simp [some]), if_neg (by omega), half, ih]
    congr 1
    push_cast
    ring

namespace BinaryFormat

/-! ## Quotients -/

theorem scale_ratio {num den : Nat} (power : Int) :
    ((scale num den power).1 : ℚ) / (scale num den power).2 = (num : ℚ) / den * 2 ^ power := by
  unfold scale
  split
  · next up =>
    obtain ⟨k, rfl⟩ := Int.eq_ofNat_of_zero_le up
    simp only [Int.toNat_natCast, Nat.pow_eq, Nat.cast_mul, Nat.cast_pow, Nat.cast_ofNat, zpow_natCast]
    ring
  · next down =>
    obtain ⟨k, hk⟩ := Int.eq_ofNat_of_zero_le (show 0 ≤ -power by omega)
    obtain rfl : power = -(k : Int) := by omega
    simp only [Int.neg_neg, Int.toNat_natCast, Nat.pow_eq, Nat.cast_mul, Nat.cast_pow, Nat.cast_ofNat, zpow_neg,
      zpow_natCast]
    rw [div_mul_eq_div_div, div_eq_mul_inv _ ((2 : ℚ) ^ k)]

theorem scale_den_pos {num den : Nat} (hden : den ≠ 0) (power : Int) : 0 < (scale num den power).2 := by
  have := Nat.pos_of_ne_zero hden
  unfold scale
  split
  · exact this
  · exact Nat.mul_pos this (Nat.two_pow_pos _)

theorem scale_lt_iff {num den : Nat} (hden : den ≠ 0) (t : Int) :
    (scale num den (-t)).1 < (scale num den (-t)).2 ↔ (num : ℚ) / den < 2 ^ t := by
  have pos : (0 : ℚ) < (scale num den (-t)).2 := by exact_mod_cast scale_den_pos hden _
  have unit : (0 : ℚ) < 2 ^ t := by positivity
  rw [← Nat.cast_lt (α := ℚ), ← div_lt_one pos, scale_ratio, zpow_neg, ← div_eq_mul_inv, div_lt_one unit]

theorem le_ratio_of_log2 {num den : Nat} (hnum : num ≠ 0) (hden : den ≠ 0) :
    (2 : ℚ) ^ ((num.log2 : Int) - den.log2 - 1) ≤ (num : ℚ) / den := by
  have above : ((2 ^ num.log2 : Nat) : ℚ) ≤ num := by exact_mod_cast Nat.log2_self_le hnum
  have below : (den : ℚ) ≤ ((2 ^ (den.log2 + 1) : Nat) : ℚ) := by exact_mod_cast (Nat.lt_log2_self (n := den)).le
  have pos : (0 : ℚ) < den := by exact_mod_cast Nat.pos_of_ne_zero hden
  rw [le_div_iff₀ pos]
  calc (2 : ℚ) ^ ((num.log2 : Int) - den.log2 - 1) * den
      ≤ 2 ^ ((num.log2 : Int) - den.log2 - 1) * ((2 ^ (den.log2 + 1) : Nat) : ℚ) := by gcongr
    _ = 2 ^ ((num.log2 : Int) - den.log2 - 1) * 2 ^ ((den.log2 : Int) + 1) := by push_cast; norm_cast
    _ = 2 ^ (num.log2 : Int) := by rw [← zpow_add₀ (by norm_num)]; congr 1; ring
    _ ≤ num := by rw [zpow_natCast]; exact_mod_cast above

/-- The greatest power of two up to a quotient. -/
theorem floorLog2_bounds {num den : Nat} (hnum : num ≠ 0) (hden : den ≠ 0) :
    (2 : ℚ) ^ floorLog2 num den ≤ (num : ℚ) / den ∧ (num : ℚ) / den < 2 ^ (floorLog2 num den + 1) := by
  refine ⟨?_, (scale_lt_iff hden _).mp (floorLog2_lt num den hden)⟩
  have fits := @scale_lt_iff num den hden ((num.log2 : Int) - den.log2)
  simp only [floorLog2]
  split
  · exact le_ratio_of_log2 hnum hden
  · next h => exact not_lt.mp fun less => h (fits.mpr less)

/-- A quotient within half of an integer is rounded to it; in the middle, if the integer is even. -/
theorem roundQuotient_eq {num den k : Nat} (hden : 0 < den) (low : 2 * (k * den) ≤ 2 * num + den)
    (high : 2 * num ≤ 2 * (k * den) + den)
    (tie : k % 2 = 1 → 2 * (k * den) < 2 * num + den ∧ 2 * num < 2 * (k * den) + den) :
    roundQuotient num den = k := by
  have split : num / den * den + num % den = num := Nat.div_add_mod' num den
  have less : num % den < den := Nat.mod_lt _ hden
  unfold roundQuotient
  simp only
  generalize num / den = q at split
  generalize num % den = r at split less
  have near : q = k ∨ q + 1 = k := by
    by_contra far
    rcases Nat.lt_or_ge k q with above | below
    · have : (k + 1) * den ≤ q * den := Nat.mul_le_mul_right _ above
      rw [Nat.add_mul] at this
      omega
    · have : (q + 2) * den ≤ k * den := Nat.mul_le_mul_right _ (by omega)
      rw [Nat.add_mul] at this
      omega
  rcases near with rfl | rfl
  · rw [if_neg]
    simp only [Bool.or_eq_true, decide_eq_true_eq, Bool.and_eq_true, beq_iff_eq, not_or, not_and]
    omega
  · rw [Nat.add_mul] at low high tie
    rw [if_pos]
    simp only [Bool.or_eq_true, decide_eq_true_eq, Bool.and_eq_true, beq_iff_eq]
    omega

theorem roundQuotient_of_ratio {num den k : Nat} (hden : 0 < den) {y : ℚ} (hy : (num : ℚ) / den = y)
    (low : k - 1 / 2 ≤ y) (high : y ≤ k + 1 / 2) (tie : k % 2 = 1 → (k - 1 / 2 : ℚ) < y ∧ y < k + 1 / 2) :
    roundQuotient num den = k := by
  have pos : (0 : ℚ) < den := by exact_mod_cast hden
  have hnum : (num : ℚ) = y * den := by rw [← hy]; field_simp
  refine roundQuotient_eq hden ?_ ?_ fun odd => ⟨?_, ?_⟩
  · have : (2 * (k * den) : ℚ) ≤ 2 * num + den := by rw [hnum]; nlinarith
    exact_mod_cast this
  · have : (2 * num : ℚ) ≤ 2 * (k * den) + den := by rw [hnum]; nlinarith
    exact_mod_cast this
  · have : (2 * (k * den) : ℚ) < 2 * num + den := by rw [hnum]; nlinarith [(tie odd).1]
    exact_mod_cast this
  · have : (2 * num : ℚ) < 2 * (k * den) + den := by rw [hnum]; nlinarith [(tie odd).2]
    exact_mod_cast this

/-! ## The interval of a value -/

def Interval.Contains (i : Interval) (x : ℚ) : Prop :=
  if i.closed then i.low * (2 : ℚ) ^ i.unit ≤ x ∧ x ≤ i.high * (2 : ℚ) ^ i.unit
  else i.low * (2 : ℚ) ^ i.unit < x ∧ x < i.high * (2 : ℚ) ^ i.unit

/-- How far the interval goes below the value, in quarters of the last place. -/
def below (f : BinaryFormat) (m : Nat) (e : Int) : Nat :=
  if m == Nat.pow 2 (f.precision - 1) && f.least < e then 1 else 2

structure Aligned (f : BinaryFormat) (mantissa : Nat) (exponent : Int) (m : Nat) (e : Int) : Prop where
  interval : f.interval mantissa exponent = ⟨4 * m - f.below m e, 4 * m, 4 * m + 2, m % 2 == 0, e - 2⟩
  pos : 0 < m
  small : m < 2 ^ f.precision
  least : f.least ≤ e
  greatest : e ≤ f.greatest
  full : 2 ^ (f.precision - 1) ≤ m ∨ e = f.least
  log : (m.log2 : Int) + e = mantissa.log2 + exponent
  same : (m : ℚ) * 2 ^ e = mantissa * 2 ^ exponent
  value : ∀ negative, Binary.ofParts negative m e = .finite negative mantissa exponent

variable {f : BinaryFormat} {negative : Bool} {mantissa m : Nat} {exponent e : Int}

theorem exists_aligned (range : f.least ≤ f.greatest) (holds : f.Holds (.finite negative mantissa exponent))
    (some : mantissa ≠ 0) : ∃ m e, f.Aligned mantissa exponent m e := by
  rcases holds with ⟨zero, -⟩ | ⟨odd, small, least, top⟩
  · exact absurd zero some
  have bits : mantissa.log2 + 1 ≤ f.precision := (Nat.log2_lt some).mpr small
  obtain ⟨shift, hshift⟩ : ∃ s, s = min (f.precision - (mantissa.log2 + 1)) (exponent - f.least).toNat := ⟨_, rfl⟩
  have log : (mantissa * Nat.pow 2 shift).log2 = mantissa.log2 + shift := Binary.log2_mul_two_pow _ _ some
  have some' : mantissa * Nat.pow 2 shift ≠ 0 := Nat.mul_ne_zero some (by simp)
  refine ⟨mantissa * Nat.pow 2 shift, exponent - shift, ?_, Nat.pos_of_ne_zero some', ?_, by omega, by omega, ?_,
    by omega, ?_, ?_⟩
  · simp only [BinaryFormat.interval, ← hshift, below]
  · exact (Nat.log2_lt some').mp (by omega)
  · by_cases full : shift = f.precision - (mantissa.log2 + 1)
    · left
      refine le_trans (Nat.pow_le_pow_right (by decide) ?_) (Nat.log2_self_le some')
      omega
    · right
      omega
  · rw [Nat.cast_mul, Nat.pow_eq, Nat.cast_pow, Nat.cast_ofNat, mul_assoc, ← zpow_natCast,
      ← zpow_add₀ (by norm_num)]
    congr 2
    omega
  · intro negative
    simp only [Binary.ofParts, Binary.reduce_mul_two_pow odd]
    congr 1
    omega

namespace Aligned

variable (aligned : f.Aligned mantissa exponent m e)

include aligned

theorem below_le : f.below m e ≤ 2 ∧ 1 ≤ f.below m e ∧ f.below m e ≤ 4 * m := by
  have := aligned.pos
  unfold below
  split <;> omega

/-- What the interval says in units of the last place. -/
theorem bounds {x : ℚ} (inside : (f.interval mantissa exponent).Contains x) :
    (m - 1 / 2 : ℚ) * 2 ^ e ≤ x ∧ x ≤ (m + 1 / 2 : ℚ) * 2 ^ e ∧
      (m % 2 = 1 → (m - 1 / 2 : ℚ) * 2 ^ e < x ∧ x < (m + 1 / 2 : ℚ) * 2 ^ e) ∧
      (m = 2 ^ (f.precision - 1) → f.least < e → (m - 1 / 4 : ℚ) * 2 ^ e ≤ x) := by
  have quarter : (2 : ℚ) ^ (e - 2) = 2 ^ e / 4 := by
    rw [zpow_sub₀ (by norm_num)]
    norm_num
  have pos : (0 : ℚ) < 2 ^ e := by positivity
  obtain ⟨two, -, fits⟩ := aligned.below_le
  have least : (f.below m e : ℚ) ≤ 2 := by exact_mod_cast two
  have narrow (power : m = 2 ^ (f.precision - 1)) (higher : f.least < e) : (f.below m e : ℚ) = 1 := by
    rw [below, if_pos (by simp [power, higher]), Nat.cast_one]
  rw [aligned.interval] at inside
  by_cases even : m % 2 = 0
  · simp only [Interval.Contains, even, beq_self_eq_true, if_true, quarter, Nat.cast_sub fits] at inside
    obtain ⟨low, high⟩ := inside
    push_cast at low high
    refine ⟨by nlinarith, by nlinarith, by omega, fun power higher => ?_⟩
    rw [narrow power higher] at low
    nlinarith
  · have closed : (m % 2 == 0) = false := by simpa using even
    simp only [Interval.Contains, closed, Bool.false_eq_true, if_false, quarter, Nat.cast_sub fits] at inside
    obtain ⟨low, high⟩ := inside
    push_cast at low high
    refine ⟨by nlinarith, by nlinarith, fun _ => ⟨by nlinarith, by nlinarith⟩, fun power higher => ?_⟩
    rw [narrow power higher] at low
    nlinarith

theorem contains_pos {x : ℚ} (inside : (f.interval mantissa exponent).Contains x) : 0 < x := by
  have one : (1 : ℚ) ≤ m := by exact_mod_cast aligned.pos
  have unit : (0 : ℚ) < 2 ^ e := by positivity
  have := (aligned.bounds inside).1
  nlinarith

/-- The value is in its interval. -/
theorem contains : (f.interval mantissa exponent).Contains (mantissa * 2 ^ exponent) := by
  have quarter : (2 : ℚ) ^ (e - 2) = 2 ^ e / 4 := by
    rw [zpow_sub₀ (by norm_num)]
    norm_num
  have pos : (0 : ℚ) < 2 ^ e := by positivity
  obtain ⟨-, one, fits⟩ := aligned.below_le
  have one : (1 : ℚ) ≤ f.below m e := by exact_mod_cast one
  rw [aligned.interval, ← aligned.same]
  simp only [Interval.Contains, quarter, Nat.cast_sub fits]
  push_cast
  split
  · exact ⟨by nlinarith, by nlinarith⟩
  · exact ⟨by nlinarith, by nlinarith⟩

end Aligned

/-! ## Rounding -/

theorem round_eq_ofParts {num den q : Nat} (hnum : num ≠ 0)
    (hlog : max (floorLog2 num den - (f.precision - 1 : Nat)) f.least = e)
    (hq : roundQuotient (scale num den (-e)).1 (scale num den (-e)).2 = q)
    (fits : e < f.greatest ∨ e = f.greatest ∧ q < 2 ^ f.precision) :
    f.round negative num den = Binary.ofParts negative q e := by
  unfold round
  simp only [hnum, if_false, hlog, hq]
  rw [if_neg]
  simp only [Bool.or_eq_true, decide_eq_true_eq, Bool.and_eq_true, not_or, not_and, Nat.pow_eq]
  omega

/-- If rounding chooses the exponent of the value, the interval is what is rounded to its mantissa. -/
theorem Aligned.round_eq (aligned : f.Aligned mantissa exponent m e) {num den : Nat} (hden : den ≠ 0)
    (inside : (f.interval mantissa exponent).Contains ((num : ℚ) / den)) (hnum : num ≠ 0)
    (hlog : max (floorLog2 num den - (f.precision - 1 : Nat)) f.least = e) :
    f.round negative num den = .finite negative mantissa exponent := by
  obtain ⟨low, high, tie, -⟩ := aligned.bounds inside
  have unit : (0 : ℚ) < 2 ^ e := by positivity
  have ratio : ((scale num den (-e)).1 : ℚ) / (scale num den (-e)).2 = (num : ℚ) / den / 2 ^ e := by
    rw [scale_ratio, zpow_neg, ← div_eq_mul_inv]
  have small := aligned.small
  have greatest := aligned.greatest
  rw [← aligned.value]
  refine round_eq_ofParts hnum hlog (roundQuotient_of_ratio (scale_den_pos hden _) ratio ?_ ?_ fun odd => ?_) (by omega)
  · rwa [le_div_iff₀ unit]
  · rwa [div_le_iff₀ unit]
  · rw [lt_div_iff₀ unit, div_lt_iff₀ unit]
    exact tie odd

/-- Right below a power of two rounding chooses the next lower exponent, and rounds to the double of
    the mantissa. -/
theorem Aligned.round_eq_below (aligned : f.Aligned mantissa exponent m e) {num den : Nat} (hden : den ≠ 0)
    (low : (m - 1 / 4 : ℚ) * 2 ^ e ≤ (num : ℚ) / den) (high : (num : ℚ) / den < m * 2 ^ e) (hnum : num ≠ 0)
    (hlog : max (floorLog2 num den - (f.precision - 1 : Nat)) f.least = e - 1) :
    f.round negative num den = .finite negative mantissa exponent := by
  have unit : (2 : ℚ) ^ (e - 1) = 2 ^ e / 2 := by rw [zpow_sub₀ (by norm_num), zpow_one]
  have pos : (0 : ℚ) < 2 ^ (e - 1) := by positivity
  have ratio : ((scale num den (-(e - 1))).1 : ℚ) / (scale num den (-(e - 1))).2 = (num : ℚ) / den / 2 ^ (e - 1) := by
    rw [scale_ratio, zpow_neg, ← div_eq_mul_inv]
  have greatest := aligned.greatest
  have doubled : Binary.ofParts negative (2 * m) (e - 1) = .finite negative mantissa exponent := by
    have := aligned.pos
    rw [← aligned.value, Binary.ofParts, Binary.ofParts, Binary.reduce, dif_neg (by omega), if_neg (by omega),
      Nat.mul_div_cancel_left _ (by decide), Int.sub_add_cancel]
  rw [← doubled]
  refine round_eq_ofParts hnum hlog (roundQuotient_of_ratio (scale_den_pos hden _) ratio ?_ ?_ (by omega)) (by omega)
  · rw [le_div_iff₀ pos, unit]
    push_cast
    nlinarith
  · rw [div_le_iff₀ pos, unit]
    push_cast
    nlinarith

/-- Every quotient in the interval of a value is rounded to the value. -/
theorem round_eq (bits : 0 < f.precision) (range : f.least ≤ f.greatest)
    (holds : f.Holds (.finite negative mantissa exponent)) (some : mantissa ≠ 0) {num den : Nat} (hden : den ≠ 0)
    (inside : (f.interval mantissa exponent).Contains ((num : ℚ) / den)) :
    f.round negative num den = .finite negative mantissa exponent := by
  obtain ⟨m, e, aligned⟩ := exists_aligned range holds some
  obtain ⟨low, high, -, narrow⟩ := aligned.bounds inside
  have unit : (0 : ℚ) < 2 ^ e := by positivity
  have hnum : num ≠ 0 := by
    rintro rfl
    have := aligned.contains_pos inside
    rw [Nat.cast_zero, zero_div] at this
    exact lt_irrefl _ this
  obtain ⟨reached, above⟩ := floorLog2_bounds hnum hden
  have exponents {a b : Int} (h : (2 : ℚ) ^ a < 2 ^ b) : a < b := (zpow_lt_zpow_iff_right₀ (by norm_num)).mp h
  have least := aligned.least
  -- `top` is the least mantissa that has all its bits.
  obtain ⟨top, htop⟩ : ∃ top, top = 2 ^ (f.precision - 1) := ⟨_, rfl⟩
  have one : (1 : ℚ) ≤ top := by exact_mod_cast htop ▸ Nat.two_pow_pos (f.precision - 1)
  have small : (m : ℚ) + 1 ≤ 2 * top := by
    have := aligned.small
    rw [← Nat.sub_add_cancel bits, Nat.pow_succ', ← htop] at this
    exact_mod_cast this
  have topUnit : (2 : ℚ) ^ ((f.precision : Int) - 1 + e) = top * 2 ^ e := by
    rw [zpow_add₀ (by norm_num), htop, Nat.cast_pow, ← zpow_natCast, Nat.cast_sub bits]
    rfl
  have under : floorLog2 num den < (f.precision : Int) - 1 + e + 1 := exponents (by
    rw [zpow_add₀ (by norm_num) _ 1, topUnit]
    nlinarith)
  by_cases reaches : top * (2 : ℚ) ^ e ≤ (num : ℚ) / den
  · have least : (f.precision : Int) - 1 + e < floorLog2 num den + 1 :=
      exponents (topUnit ▸ lt_of_le_of_lt reaches above)
    exact aligned.round_eq hden inside hnum (by omega)
  · have short : floorLog2 num den < (f.precision : Int) - 1 + e :=
      exponents (topUnit ▸ lt_of_le_of_lt reached (not_le.mp reaches))
    by_cases lowest : e = f.least
    · exact aligned.round_eq hden inside hnum (by omega)
    have power : m = top := by
      have full : top ≤ m := htop ▸ aligned.full.resolve_right lowest
      have : (m : ℚ) < top + 1 := by nlinarith
      have : m < top + 1 := by exact_mod_cast this
      omega
    have near := narrow (power.trans htop) (by omega)
    have least : (f.precision : Int) - 1 + e - 1 < floorLog2 num den + 1 := exponents (by
      rw [zpow_sub₀ (by norm_num), topUnit, zpow_one]
      rw [power] at near
      nlinarith)
    exact aligned.round_eq_below hden near (power ▸ not_le.mp reaches) hnum (by omega)

/-- A value of the format stays as it is. -/
theorem ofBinary_eq (bits : 0 < f.precision) (range : f.least ≤ f.greatest) {x : Binary} (holds : f.Holds x) :
    f.ofBinary x = x := by
  cases x with
  | infinite negative => rfl
  | finite negative m e =>
    by_cases zero : m = 0
    · obtain rfl : e = 0 := by
        rcases holds with h | h
        · exact h.2
        · omega
      subst zero
      rfl
    · obtain ⟨_, _, aligned⟩ := exists_aligned range holds zero
      show f.round negative (scale m 1 e).1 (scale m 1 e).2 = _
      refine round_eq bits range holds zero (scale_den_pos (by decide) _).ne' ?_
      rw [scale_ratio, Nat.cast_one, div_one]
      exact aligned.contains

theorem digits_pos (range : f.least ≤ f.greatest) (holds : f.Holds (.finite negative mantissa exponent))
    (some : mantissa ≠ 0) {digits : Nat} {power : Int}
    (inside : (f.interval mantissa exponent).Contains (digits * 10 ^ power)) : 0 < digits := by
  obtain ⟨m, e, aligned⟩ := exists_aligned range holds some
  have pos := aligned.contains_pos inside
  refine Nat.pos_of_ne_zero ?_
  rintro rfl
  rw [Nat.cast_zero, zero_mul] at pos
  exact lt_irrefl _ pos

/-- A decimal in the interval of a value reads as the value. -/
theorem ofDecimal_eq (bits : 0 < f.precision) (range : f.least ≤ f.greatest)
    (holds : f.Holds (.finite negative mantissa exponent)) (some : mantissa ≠ 0) {digits : Nat} {power : Int}
    (near : -400 ≤ power ∧ power ≤ 400) (inside : (f.interval mantissa exponent).Contains (digits * 10 ^ power)) :
    f.ofDecimal negative digits power = .finite negative mantissa exponent := by
  have pos := digits_pos range holds some inside
  unfold ofDecimal
  rw [if_neg (by omega), if_neg (by omega), if_neg (by omega)]
  split
  · next up =>
    refine round_eq bits range holds some (by decide) ?_
    obtain ⟨k, rfl⟩ := Int.eq_ofNat_of_zero_le up
    simpa using inside
  · next down =>
    refine round_eq bits range holds some (by simp) ?_
    obtain ⟨k, hk⟩ := Int.eq_ofNat_of_zero_le (show 0 ≤ -power by omega)
    obtain rfl : power = -(k : Int) := by omega
    simpa [div_eq_mul_inv] using inside

end BinaryFormat

/-- A number of single precision stays as it is. -/
theorem Single.ofBinary_value (x : Single) : Single.ofBinary x.value = x := by
  have same := BinaryFormat.ofBinary_eq (by decide) (by decide) x.holds
  cases x
  simp only [Single.ofBinary]
  congr 1

end EventFlow
