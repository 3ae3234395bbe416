import NodeScript.Proofs.Numeric.Nearest

/-!
The shortest decimal of a value is among the reals that round to the value.
-/

namespace NodeScript

/-- The number that a decimal stands for. -/
def Decimal.value (d : Decimal) : ℚ := d.digits * 10 ^ d.exponent

/-- Comparing naturals compares the numbers themselves. -/
theorem compareScaled_eq (a : Nat) (i : ℤ) (n : Nat) (j : ℤ) :
    compareScaled a i n j = compare ((a : ℚ) * 10 ^ i) (n * 2 ^ j) := by
  have ten : (0 : ℚ) < 10 ^ (-i).toNat := by positivity
  have two : (0 : ℚ) < 2 ^ (-j).toNat := by positivity
  have left : (a : ℚ) * 10 ^ i = a * 10 ^ i.toNat / 10 ^ (-i).toNat := by
    rw [mul_div_assoc, pow_toNat_div]
  have right : (n : ℚ) * 2 ^ j = n * 2 ^ j.toNat / 2 ^ (-j).toNat := by
    rw [mul_div_assoc, pow_toNat_div]
  have cast (u v : Nat) : compare u v = compare (u : ℚ) v := by
    rcases Nat.lt_trichotomy u v with less | rfl | more
    · rw [compare_lt_iff_lt.mpr less, compare_lt_iff_lt.mpr (Nat.cast_lt.mpr less)]
    · rw [compare_eq_iff_eq.mpr rfl, compare_eq_iff_eq.mpr rfl]
    · rw [compare_gt_iff_gt.mpr more, compare_gt_iff_gt.mpr (Nat.cast_lt.mpr more)]
  have cross (u v : ℚ) : compare (u * 2 ^ (-j).toNat) (v * 10 ^ (-i).toNat) =
      compare (u / 10 ^ (-i).toNat) (v / 2 ^ (-j).toNat) := by
    rcases lt_trichotomy (u * 2 ^ (-j).toNat) (v * 10 ^ (-i).toNat) with less | same | more
    · rw [compare_lt_iff_lt.mpr less, compare_lt_iff_lt.mpr ((div_lt_div_iff₀ ten two).mpr less)]
    · rw [compare_eq_iff_eq.mpr same,
        compare_eq_iff_eq.mpr ((div_eq_div_iff ten.ne' two.ne').mpr same)]
    · rw [compare_gt_iff_gt.mpr more, compare_gt_iff_gt.mpr ((div_lt_div_iff₀ two ten).mpr more)]
  unfold compareScaled
  rw [cast, left, right, ← cross]
  simp only [Nat.pow_eq, Nat.cast_mul, Nat.cast_pow, Nat.cast_ofNat]

section Values

variable {size : Magnitude} {d : Decimal} {x : ℚ}

theorem Magnitude.rounds_of_readsBack (positive : size.significand ≠ 0)
    (reads : size.readsBack d = true) : size.Rounds d.value := by
  have value : (d.digits : ℚ) * 10 ^ d.exponent = d.value := rfl
  have unit : (0 : ℚ) < 2 ^ size.exponent := by positivity
  have quarter (n : Nat) : (n : ℚ) * 2 ^ (size.exponent - 2) = n / 4 * 2 ^ size.exponent := by
    rw [zpow_sub₀ two_ne_zero]
    norm_num
    ring
  have low : (((if size.narrowBelow then 4 * size.significand - 1
      else 4 * size.significand - 2 : Nat) : ℚ) / 4) =
        size.significand - (if size.narrowBelow then 1 / 4 else 1 / 2) := by
    split
    · rw [Nat.cast_sub (by omega)]
      push_cast
      ring
    · rw [Nat.cast_sub (by omega)]
      push_cast
      ring
  have high : (((4 * size.significand + 2 : Nat) : ℚ) / 4) = size.significand + 1 / 2 := by
    push_cast
    ring
  unfold Magnitude.readsBack at reads
  simp only [compareScaled_eq, value, quarter, low, high, Bool.and_eq_true, Bool.or_eq_true,
    beq_iff_eq, compare_gt_iff_gt, compare_lt_iff_lt, compare_eq_iff_eq,
    ← lt_div_iff₀ unit, ← div_lt_iff₀ unit, ← div_eq_iff unit.ne'] at reads
  obtain ⟨below, above⟩ := reads
  constructor
  · exact below.elim le_of_lt fun closed => closed.2.ge
  · exact above.elim le_of_lt fun closed => closed.2.le
  · rcases below with below | closed
    · exact above.elim (fun above => .inr ⟨below, above⟩) fun closed => .inl closed.1
    · exact .inl closed.1

/-- The value itself rounds to the value. -/
theorem Magnitude.rounds_exactDecimal (size : Magnitude) :
    size.Rounds size.exactDecimal.value := by
  have value : size.exactDecimal.value = size.significand * 2 ^ size.exponent := by
    unfold Magnitude.exactDecimal Decimal.value
    simp only [Nat.pow_eq, Nat.cast_mul, Nat.cast_pow, Nat.cast_ofNat]
    rcases Int.le_total 0 size.exponent with positive | negative
    · obtain ⟨n, place⟩ := Int.eq_ofNat_of_zero_le positive
      simp [place]
    · obtain ⟨n, place⟩ := Int.eq_ofNat_of_zero_le (Int.neg_nonneg_of_nonpos negative)
      obtain place : size.exponent = -n := by omega
      rw [min_eq_left negative, place]
      have five : (5 : ℚ) ^ n * (10 ^ n)⁻¹ = (2 ^ n)⁻¹ := by
        rw [show (10 : ℚ) = 5 * 2 by norm_num, mul_pow]
        field_simp
      simp [five, mul_assoc]
  have exact : size.exactDecimal.value / 2 ^ size.exponent = size.significand := by
    rw [value, mul_div_cancel_right₀ _ (by positivity)]
  have gap : (0 : ℚ) < if size.narrowBelow then 1 / 4 else 1 / 2 := by split <;> norm_num
  constructor
  · rw [exact]
    linarith
  · rw [exact]
    linarith
  · rw [exact]
    exact .inr ⟨by linarith, by linarith⟩

theorem Magnitude.readsBack_of_onGrid {grid : ℤ} (found : size.onGrid grid = some d) :
    size.readsBack d = true ∧ d.exponent = grid := by
  unfold Magnitude.onGrid at found
  dsimp only at found
  split at found
  · rename_i low high
    split at found <;> obtain rfl := Option.some.inj found
    · exact ⟨low, rfl⟩
    · exact ⟨high, rfl⟩
  · rename_i low _
    obtain rfl := Option.some.inj found
    exact ⟨low, rfl⟩
  · rename_i high
    obtain rfl := Option.some.inj found
    exact ⟨high, rfl⟩
  · exact nomatch found

/-- Zeros at the end are moved without changing the number. -/
theorem stripZeros_spec (fuel digits : Nat) (exponent : ℤ) :
    (stripZeros fuel digits exponent).value = digits * 10 ^ exponent ∧
      exponent ≤ (stripZeros fuel digits exponent).exponent := by
  induction fuel generalizing digits exponent with
  | zero => exact ⟨rfl, le_rfl⟩
  | succ fuel ih =>
    unfold stripZeros
    split
    · rename_i zero
      obtain ⟨value, grows⟩ := ih (digits / 10) (exponent + 1)
      refine ⟨?_, by omega⟩
      obtain ⟨k, rfl⟩ := Nat.dvd_of_mod_eq_zero zero.2
      rw [value, Nat.mul_div_cancel_left k (by norm_num), zpow_add_one₀ (by norm_num)]
      push_cast
      ring
    · exact ⟨rfl, le_rfl⟩

theorem Magnitude.decade_ge (size : Magnitude) :
    ((size.significand.log2 : ℤ) + size.exponent) * 30103 / 100000 - 1 ≤ size.decade := by
  unfold Magnitude.decade
  dsimp only
  generalize ((size.significand.log2 : ℤ) + size.exponent) * 30103 / 100000 - 1 = start
  cases found : List.find? (fun k => compareScaled 1 k size.significand size.exponent == .gt)
      [start, start + 1, start + 2, start + 3] with
  | none => simp
  | some k =>
    have member := List.mem_of_find?_eq_some found
    simp only [List.mem_cons, List.not_mem_nil, or_false] at member
    rw [Option.getD_some]
    omega

/-- The shortest decimal rounds to the value, and its places do not go far below those of the
value. -/
theorem Magnitude.shortest_spec (positive : size.significand ≠ 0)
    (bounded : -1100 ≤ size.exponent) :
    size.Rounds size.shortest.value ∧ -1100 ≤ size.shortest.exponent := by
  have choice (d : Decimal) (rounds : size.Rounds d.value) (above : -1100 ≤ d.exponent) :
      size.Rounds d.strip.value ∧ -1100 ≤ d.strip.exponent := by
    obtain ⟨value, grows⟩ := stripZeros_spec d.digits.log2 d.digits d.exponent
    exact ⟨value ▸ rounds, above.trans grows⟩
  unfold Magnitude.shortest
  rw [if_neg positive]
  dsimp only
  cases found : (List.range 17).findSome? fun (n : Nat) => size.onGrid (size.decade - 1 - n) with
  | none =>
    refine choice _ size.rounds_exactDecimal ?_
    have places : size.exactDecimal.exponent = min size.exponent 0 := rfl
    rw [Option.getD_none, places]
    omega
  | some d =>
    obtain ⟨n, member, onGrid⟩ := List.exists_of_findSome?_eq_some found
    have small := List.mem_range.mp member
    obtain ⟨reads, place⟩ := readsBack_of_onGrid onGrid
    refine choice d (rounds_of_readsBack positive reads) ?_
    have least := size.decade_ge
    have digits : 0 ≤ (size.significand.log2 : ℤ) := Int.natCast_nonneg _
    omega

end Values

end NodeScript
