/-
  EventFlow.Proofs.Binary.Shortest — the shortest decimal reads back.

  The neighbours of a value are looked for on ever finer decimal grids. A neighbour that is taken lies
  in the interval of the value, so it reads as the value. The last grid is finer than the interval of
  any double, so one is taken.

  Proved:
  - `onGrid_spec`: what is found on a grid, and that something is found on a fine one.
  - `shortest_spec`: the shortest decimal of a double, and how far its exponent goes.
-/

import EventFlow.Proofs.Binary.Rounding

namespace EventFlow.BinaryFormat

/-- How many units of an interval a step on the grid takes. -/
theorem grid_ratio (place unit : Int) :
    ((Nat.pow 10 place.toNat * Nat.pow 2 (-unit).toNat : Nat) : ℚ) * 2 ^ unit =
      (Nat.pow 10 (-place).toNat * Nat.pow 2 unit.toNat : Nat) * 10 ^ place := by
  have split (x : ℚ) (hx : x ≠ 0) (k : Int) : x ^ k.toNat = x ^ (-k).toNat * x ^ k := by
    rw [← zpow_natCast, ← zpow_natCast, ← zpow_add₀ hx]
    congr 1
    omega
  push_cast
  simp only [Nat.pow_eq, Nat.cast_pow, Nat.cast_ofNat]
  rw [split 10 (by norm_num) place, split 2 (by norm_num) unit]
  ring

/-- Two products compare as the numbers do that their factors stand for. -/
theorem scaled_le_iff {a b l d : Nat} {u g : ℚ} (hb : 0 < b) (hu : 0 < u) (ratio : (a : ℚ) * u = b * g) :
    (l * b ≤ d * a ↔ (l : ℚ) * u ≤ d * g) ∧ (d * a ≤ l * b ↔ (d : ℚ) * g ≤ l * u) := by
  have hb' : (0 : ℚ) < b := by exact_mod_cast hb
  have left : (d * a : ℚ) * u = d * g * b := by rw [mul_assoc, ratio]; ring
  have right : (l * b : ℚ) * u = l * u * b := by ring
  rw [← Nat.cast_le (α := ℚ), ← Nat.cast_le (α := ℚ)]
  push_cast
  constructor
  · rw [← mul_le_mul_iff_left₀ hu, left, right, mul_le_mul_iff_left₀ hb']
  · rw [← mul_le_mul_iff_left₀ hu, left, right, mul_le_mul_iff_left₀ hb']

/-- What is found on a grid lies in the interval, and on a fine grid something is found. -/
theorem Interval.onGrid_spec (i : Interval) (place : Int) :
    (∀ d, i.onGrid place = some d → i.Contains (d * 10 ^ place)) ∧
      (i.low < i.mid → i.mid < i.high → (10 : ℚ) ^ place ≤ 2 ^ i.unit → i.onGrid place ≠ none) := by
  have ratio := grid_ratio place i.unit
  obtain ⟨a, ha⟩ : ∃ a, a = Nat.pow 10 place.toNat * Nat.pow 2 (-i.unit).toNat := ⟨_, rfl⟩
  obtain ⟨b, hb⟩ : ∃ b, b = Nat.pow 10 (-place).toNat * Nat.pow 2 i.unit.toNat := ⟨_, rfl⟩
  have posA : 0 < a := by rw [ha]; simp only [Nat.pow_eq]; positivity
  have posB : 0 < b := by rw [hb]; simp only [Nat.pow_eq]; positivity
  have unit : (0 : ℚ) < 2 ^ i.unit := by positivity
  rw [← ha, ← hb] at ratio
  obtain ⟨inside, hinside⟩ : ∃ inside : Nat → Bool, inside = fun d =>
      if i.closed then i.low * b ≤ d * a && d * a ≤ i.high * b else i.low * b < d * a && d * a < i.high * b := ⟨_, rfl⟩
  have contains (d : Nat) : inside d = true ↔ i.Contains (d * 10 ^ place) := by
    have low := scaled_le_iff (l := i.low) (d := d) posB unit ratio
    have high := scaled_le_iff (l := i.high) (d := d) posB unit ratio
    rw [hinside, Contains]
    by_cases closed : i.closed = true
    · simp [closed, low.1, high.2]
    · simp only [closed, Bool.false_eq_true, if_false, Bool.and_eq_true, decide_eq_true_eq]
      exact and_congr (by rw [← not_le, ← not_le, low.2]) (by rw [← not_le, ← not_le, high.1])
  have chosen : i.onGrid place =
      if inside (i.mid * b / a) && inside (i.mid * b / a + 1) then
        some (if i.mid * b - i.mid * b / a * a < (i.mid * b / a + 1) * a - i.mid * b ||
          (i.mid * b - i.mid * b / a * a == (i.mid * b / a + 1) * a - i.mid * b && i.mid * b / a % 2 == 0)
          then i.mid * b / a else i.mid * b / a + 1)
      else if inside (i.mid * b / a) then some (i.mid * b / a)
      else if inside (i.mid * b / a + 1) then some (i.mid * b / a + 1) else none := by
    rw [hinside, ha, hb]
    rfl
  rw [chosen]
  constructor
  · intro d
    rw [← contains]
    split
    · next both =>
      rw [Bool.and_eq_true] at both
      intro h
      cases h
      split
      · exact both.1
      · exact both.2
    split
    · next below => exact fun h => by cases h; exact below
    split
    · next above => exact fun h => by cases h; exact above
    · intro h
      cases h
  · intro low high fine
    have fine : a ≤ b := by
      have : (a : ℚ) * 2 ^ i.unit ≤ b * 2 ^ i.unit := by rw [ratio]; gcongr
      exact_mod_cast le_of_mul_le_mul_right this unit
    -- The lower neighbour is less than a step away from the middle.
    have below : inside (i.mid * b / a) = true := by
      have rest := Nat.div_add_mod' (i.mid * b) a
      have less := Nat.mod_lt (i.mid * b) posA
      have lower : (i.low + 1) * b ≤ i.mid * b := Nat.mul_le_mul_right _ low
      have upper : i.mid * b < i.high * b := Nat.mul_lt_mul_of_pos_right high posB
      rw [Nat.add_mul] at lower
      rw [hinside]
      split
      · simp only [Bool.and_eq_true, decide_eq_true_eq]
        omega
      · simp only [Bool.and_eq_true, decide_eq_true_eq]
        omega
    rw [below]
    split
    all_goals
      intro h
      cases h

/-- Powers of ten and of two, by `10 ^ 3 ≤ 2 ^ 10` and `2 ^ 93 ≤ 10 ^ 28`. -/
theorem ten_zpow_le {k j : Int} (up : 0 ≤ k → 10 * k ≤ 3 * j) (down : k < 0 → 28 * -j ≤ 93 * -k) :
    (10 : ℚ) ^ k ≤ 2 ^ j := by
  by_cases sign : 0 ≤ k
  · refine le_of_pow_le_pow_left₀ (n := 3) (by decide) (by positivity) ?_
    calc ((10 : ℚ) ^ k) ^ 3 = 1000 ^ k := by rw [← zpow_natCast, zpow_comm, zpow_natCast]; norm_num
      _ ≤ 1024 ^ k := zpow_le_zpow_left₀ sign (by norm_num) (by norm_num)
      _ = 2 ^ (10 * k) := by rw [zpow_mul]; norm_num
      _ ≤ 2 ^ (3 * j) := zpow_le_zpow_right₀ (by norm_num) (up sign)
      _ = (2 ^ j) ^ 3 := by rw [mul_comm, zpow_mul]; norm_cast
  · refine le_of_pow_le_pow_left₀ (n := 28) (by decide) (by positivity) ?_
    have down := down (by omega)
    obtain ⟨n, hn⟩ := Int.eq_ofNat_of_zero_le (show 0 ≤ -k by omega)
    obtain rfl : k = -(n : Int) := by omega
    calc ((10 : ℚ) ^ (-(n : Int))) ^ 28 = ((10 ^ 28) ^ n)⁻¹ := by
          rw [zpow_neg, zpow_natCast, inv_pow, ← pow_mul, ← pow_mul, mul_comm]
      _ ≤ ((2 ^ 93) ^ n)⁻¹ := by
          refine inv_anti₀ (by positivity) (pow_le_pow_left₀ (by norm_num) (by norm_num) n)
      _ = 2 ^ (-(93 * n : Int)) := by rw [← pow_mul, zpow_neg]; norm_cast
      _ ≤ 2 ^ (28 * j) := zpow_le_zpow_right₀ (by norm_num) (by omega)
      _ = (2 ^ j) ^ 28 := by rw [mul_comm, zpow_mul]; norm_cast

/-- The shortest decimal of a double lies in the double's interval. -/
theorem shortest_spec {negative : Bool} {mantissa : Nat} {exponent : Int}
    (holds : double.Holds (.finite negative mantissa exponent)) (some : mantissa ≠ 0) :
    (double.interval mantissa exponent).Contains
      ((double.shortest mantissa exponent).digits * 10 ^ (double.shortest mantissa exponent).exponent) ∧
      -400 ≤ (double.shortest mantissa exponent).exponent ∧ (double.shortest mantissa exponent).exponent ≤ 400 := by
  obtain ⟨m, e, aligned⟩ := exists_aligned (by decide) holds some
  have bits : m.log2 < 53 := (Nat.log2_lt aligned.pos.ne').mpr aligned.small
  have least : -1074 ≤ e := aligned.least
  have greatest : e ≤ 971 := aligned.greatest
  have log := aligned.log
  unfold shortest
  simp only
  rw [Int.fdiv_eq_ediv_of_nonneg _ (by decide)]
  obtain ⟨top, htop⟩ : ∃ top, top = (((mantissa.log2 : Int) + exponent + 1) * 30103) / 100000 + 1 := ⟨_, rfl⟩
  rw [← htop]
  cases hit : (List.range 24).findSome? fun (n : Nat) =>
      ((double.interval mantissa exponent).onGrid (top - n)).map (Decimal.mk · (top - n)) with
  | none =>
    have last := List.findSome?_eq_none_iff.mp hit 23 (by decide)
    rw [Option.map_eq_none_iff] at last
    have below := aligned.below_le
    have pos := aligned.pos
    refine absurd last (((double.interval mantissa exponent).onGrid_spec _).2 ?_ ?_ ?_)
    · rw [aligned.interval]
      show 4 * m - _ < 4 * m
      omega
    · rw [aligned.interval]
      show 4 * m < 4 * m + 2
      omega
    · rw [aligned.interval]
      show (10 : ℚ) ^ (top - (23 : Nat)) ≤ 2 ^ (e - 2)
      exact ten_zpow_le (by omega) (by omega)
  | some d =>
    obtain ⟨n, member, found⟩ := List.exists_of_findSome?_eq_some hit
    obtain ⟨digits, grid, rfl⟩ := Option.map_eq_some_iff.mp found
    rw [List.mem_range] at member
    refine ⟨((double.interval mantissa exponent).onGrid_spec _).1 _ grid, ?_, ?_⟩
    · show -400 ≤ top - n
      omega
    · show top - n ≤ 400
      omega

end EventFlow.BinaryFormat
