/-
  EventFlow.Binary.Single — numbers of single precision.

  A format holds the numbers whose mantissa fits its precision and whose exponent fits its
  range, and the infinities. Rounding always ends in the format (`holds_round`), so a
  number of single precision carries the proof that it is one.
-/

import EventFlow.Binary.Basic

namespace EventFlow

namespace Binary

theorem reduce_eq (mantissa : Nat) (exponent : Int) (h : mantissa ≠ 0) :
    ∃ k : Nat, (reduce mantissa exponent).1 % 2 = 1 ∧
      mantissa = (reduce mantissa exponent).1 * Nat.pow 2 k ∧
      (reduce mantissa exponent).2 = exponent + k := by
  fun_induction reduce mantissa exponent with
  | case1 => exact absurd rfl h
  | case2 _ _ _ odd => exact ⟨0, odd, by simp, by simp⟩
  | case3 m e _ even ih =>
    obtain ⟨k, hodd, hm, he⟩ := ih (by omega)
    refine ⟨k + 1, hodd, ?_, by omega⟩
    rw [Nat.pow_eq] at hm ⊢
    rw [Nat.pow_succ, ← Nat.mul_assoc, ← hm]
    omega

theorem log2_mul_two_pow (m k : Nat) (h : m ≠ 0) :
    (m * Nat.pow 2 k).log2 = m.log2 + k := by
  induction k with
  | zero => simp
  | succ k ih =>
    have hpos : m * Nat.pow 2 k ≠ 0 := Nat.mul_ne_zero h (by simp)
    rw [Nat.pow_eq, Nat.pow_succ, ← Nat.pow_eq, ← Nat.mul_assoc, Nat.mul_comm _ 2, Nat.log2_two_mul hpos, ih]
    omega

end Binary

namespace BinaryFormat

/-- Whether a value is one of the format. -/
def Holds (f : BinaryFormat) : Binary → Prop
  | .infinite _ => True
  | .finite _ m e =>
    (m = 0 ∧ e = 0) ∨ (m % 2 = 1 ∧ m < Nat.pow 2 f.precision ∧ f.least ≤ e ∧
      (m.log2 : Int) + e < f.greatest + f.precision)

theorem holds_ofParts (f : BinaryFormat) (negative : Bool) {q : Nat} {e : Int}
    (hp : 0 < f.precision) (hq : q ≤ Nat.pow 2 f.precision) (hl : f.least ≤ e)
    (hg : e < f.greatest ∨ e = f.greatest ∧ q < Nat.pow 2 f.precision) :
    f.Holds (Binary.ofParts negative q e) := by
  by_cases h0 : q = 0
  · subst h0
    simp [Binary.ofParts, Binary.reduce, Holds]
  · obtain ⟨k, hodd, hm, he⟩ := Binary.reduce_eq q e h0
    simp only [Binary.ofParts, Holds]
    generalize (Binary.reduce q e).1 = m at hodd hm
    generalize (Binary.reduce q e).2 = e' at he
    have hm0 : m ≠ 0 := by omega
    have hlog : q.log2 = m.log2 + k := by rw [hm, Binary.log2_mul_two_pow m k hm0]
    have hmq : m ≤ q := by
      rw [hm]
      exact Nat.le_mul_of_pos_right _ (Nat.two_pow_pos k)
    have hne : m ≠ Nat.pow 2 f.precision := by
      intro heq
      obtain ⟨p, hp'⟩ : ∃ p, f.precision = p + 1 := ⟨f.precision - 1, by omega⟩
      rw [hp', Nat.pow_eq, Nat.pow_succ] at heq
      omega
    refine .inr ⟨hodd, by omega, by omega, ?_⟩
    rcases hg with hg | ⟨hg, hlt⟩
    · have : q.log2 < f.precision + 1 :=
        (Nat.log2_lt h0).2 (Nat.lt_of_le_of_lt hq (Nat.pow_lt_pow_right (by decide) (by omega)))
      omega
    · have := (Nat.log2_lt h0).2 hlt
      omega

theorem scale_eq (num den : Nat) (power : Int) :
    scale num den power = (num * Nat.pow 2 power.toNat, den * Nat.pow 2 (-power).toNat) := by
  unfold scale
  split
  · next h => simp [show (-power).toNat = 0 by omega]
  · next h => simp [show power.toNat = 0 by omega]

/-- A quotient that is less than `2 ^ k` is less than any greater power of two. -/
theorem scale_lt {num den : Nat} {k e : Int} {p : Nat} (hk : k ≤ e + p)
    (h : (scale num den (-k)).1 < (scale num den (-k)).2) :
    (scale num den (-e)).1 < (scale num den (-e)).2 * Nat.pow 2 p := by
  simp only [scale_eq, Int.neg_neg] at h ⊢
  refine Nat.lt_of_mul_lt_mul_right (a := Nat.pow 2 (-k).toNat) ?_
  calc num * Nat.pow 2 (-e).toNat * Nat.pow 2 (-k).toNat
      = num * Nat.pow 2 (-k).toNat * Nat.pow 2 (-e).toNat := Nat.mul_right_comm ..
    _ < den * Nat.pow 2 k.toNat * Nat.pow 2 (-e).toNat :=
      Nat.mul_lt_mul_of_pos_right h (Nat.two_pow_pos _)
    _ = den * Nat.pow 2 (k.toNat + (-e).toNat) := by
      simp only [Nat.pow_eq, Nat.mul_assoc, Nat.pow_add]
    _ ≤ den * Nat.pow 2 (e.toNat + p + (-k).toNat) :=
      Nat.mul_le_mul_left _ (Nat.pow_le_pow_right (by decide) (by omega))
    _ = den * Nat.pow 2 e.toNat * Nat.pow 2 p * Nat.pow 2 (-k).toNat := by
      simp only [Nat.pow_eq, Nat.mul_assoc, Nat.pow_add]

/-- A quotient is less than the power of two above the greatest one that it reaches. -/
theorem floorLog2_lt (num den : Nat) (hden : den ≠ 0) :
    (scale num den (-(floorLog2 num den + 1))).1 <
      (scale num den (-(floorLog2 num den + 1))).2 := by
  have hnum : num < Nat.pow 2 (num.log2 + 1) := Nat.lt_log2_self
  have hden' : Nat.pow 2 den.log2 ≤ den := Nat.log2_self_le hden
  have wide : (scale num den (-((num.log2 : Int) - den.log2 + 1))).1 <
      (scale num den (-((num.log2 : Int) - den.log2 + 1))).2 := by
    simp only [scale_eq, Int.neg_neg]
    generalize hA : (-((num.log2 : Int) - den.log2 + 1)).toNat = a
    generalize hB : ((num.log2 : Int) - den.log2 + 1).toNat = b
    calc num * Nat.pow 2 a < Nat.pow 2 (num.log2 + 1) * Nat.pow 2 a :=
          Nat.mul_lt_mul_of_pos_right hnum (Nat.two_pow_pos _)
      _ = Nat.pow 2 den.log2 * Nat.pow 2 b := by
          simp only [Nat.pow_eq, ← Nat.pow_add]
          congr 1
          omega
      _ ≤ den * Nat.pow 2 b := Nat.mul_le_mul_right _ hden'
  have either : floorLog2 num den = (num.log2 : Int) - den.log2 ∨
      floorLog2 num den = (num.log2 : Int) - den.log2 - 1 ∧
        (scale num den (-((num.log2 : Int) - den.log2))).1 <
          (scale num den (-((num.log2 : Int) - den.log2))).2 := by
    simp only [floorLog2]
    split
    · next h => exact .inr ⟨rfl, h⟩
    · exact .inl rfl
  rcases either with h | ⟨h, hlt⟩
  · rw [h]
    exact wide
  · rw [h, Int.sub_add_cancel]
    exact hlt

theorem roundQuotient_le {num den k : Nat} (hden : den ≠ 0) (h : num < den * k) :
    roundQuotient num den ≤ k := by
  have hlt : num / den < k :=
    (Nat.div_lt_iff_lt_mul (Nat.pos_of_ne_zero hden)).2 (by rwa [Nat.mul_comm])
  unfold roundQuotient
  simp only
  split <;> omega

/-- Rounding ends in the format. -/
theorem holds_round (f : BinaryFormat) (hp : 0 < f.precision) (negative : Bool) (num den : Nat)
    (hden : den ≠ 0) : f.Holds (f.round negative num den) := by
  unfold round
  split
  · simp [Holds]
  · simp only
    generalize he : max (floorLog2 num den - (f.precision - 1 : Nat)) f.least = e
    have hlt := scale_lt (e := e) (p := f.precision) (by omega) (floorLog2_lt num den hden)
    have hd : (scale num den (-e)).2 ≠ 0 := by
      simp only [scale_eq]
      exact Nat.mul_ne_zero hden (by simp)
    have hq := roundQuotient_le hd hlt
    split
    · simp [Holds]
    · next hin =>
      simp only [Bool.or_eq_true, decide_eq_true_eq, Bool.and_eq_true, not_or] at hin
      exact holds_ofParts f negative hp hq (by omega) (by omega)

theorem holds_ofBinary (f : BinaryFormat) (hp : 0 < f.precision) (x : Binary) :
    f.Holds (f.ofBinary x) := by
  cases x with
  | infinite => simp [ofBinary, Holds]
  | finite negative m e =>
    simp only [ofBinary]
    refine holds_round f hp negative _ _ ?_
    simp [scale_eq]

theorem holds_ofDecimal (f : BinaryFormat) (hp : 0 < f.precision) (negative : Bool)
    (digits : Nat) (exponent : Int) : f.Holds (f.ofDecimal negative digits exponent) := by
  unfold ofDecimal
  split
  · simp [Holds]
  split
  · simp [Holds]
  split
  · simp [Holds]
  split
  · exact holds_round f hp negative _ _ (by decide)
  · exact holds_round f hp negative _ _ (by simp)

end BinaryFormat

structure Single where
  value : Binary
  holds : BinaryFormat.single.Holds value
  deriving DecidableEq

namespace Single

/-- The nearest number of single precision. -/
def ofBinary (x : Binary) : Single :=
  ⟨BinaryFormat.single.ofBinary x, BinaryFormat.single.holds_ofBinary (by decide) x⟩

def ofDecimal (digits : Nat) (exponent : Int) : Single :=
  ⟨BinaryFormat.single.ofDecimal false digits exponent,
    BinaryFormat.single.holds_ofDecimal (by decide) false digits exponent⟩

instance : Inhabited Single := ⟨ofBinary default⟩

end Single
end EventFlow
