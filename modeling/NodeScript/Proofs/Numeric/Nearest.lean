import Mathlib
import NodeScript.Numeric.Binary

/-!
Rounding to the values of a format. Every value stands for the quotients around it up to the middles
between it and its neighbours; which of these belong to it is decided by whether it is even. A
quotient that belongs to a value is rounded to the pattern of that value.
-/

namespace NodeScript

/-! ### Powers and quotients -/

theorem pow_toNat_div (b : ℚ) (e : ℤ) : b ^ e.toNat / b ^ (-e).toNat = b ^ e := by
  rcases Int.le_total 0 e with positive | negative
  · obtain ⟨n, rfl⟩ := Int.eq_ofNat_of_zero_le positive
    simp
  · obtain ⟨n, hn⟩ := Int.eq_ofNat_of_zero_le (Int.neg_nonneg_of_nonpos negative)
    obtain rfl : e = -n := by omega
    simp

theorem scaleByTwo_quotient (num den : Nat) (e : ℤ) :
    ((scaleByTwo num den e).1 : ℚ) / (scaleByTwo num den e).2 = num / den * 2 ^ e := by
  have power := pow_toNat_div 2 e
  simp only [scaleByTwo, Nat.pow_eq, Nat.cast_mul, Nat.cast_pow, Nat.cast_ofNat]
  rw [mul_div_mul_comm, power]

theorem scaleByTwo_den_pos {den : Nat} (positive : 0 < den) (num : Nat) (e : ℤ) :
    0 < (scaleByTwo num den e).2 :=
  Nat.mul_pos positive (Nat.pow_pos Nat.two_pos)

/-- A quotient is rounded to a natural that is at most a half away from it, to one that is exactly a
half away if it is even. -/
theorem roundHalfEven_eq {num den s : Nat} (positive : 0 < den)
    (low : (s : ℚ) - 1 / 2 ≤ num / den) (high : (num : ℚ) / den ≤ s + 1 / 2)
    (strict : s % 2 = 0 ∨ (s : ℚ) - 1 / 2 < num / den ∧ (num : ℚ) / den < s + 1 / 2) :
    roundHalfEven num den = s := by
  have den_pos : (0 : ℚ) < den := by exact_mod_cast positive
  rw [le_div_iff₀ den_pos] at low
  rw [div_le_iff₀ den_pos] at high
  rw [lt_div_iff₀ den_pos, div_lt_iff₀ den_pos] at strict
  have split : den * (num / den) + num % den = num := Nat.div_add_mod num den
  have small := Nat.mod_lt num positive
  unfold roundHalfEven
  generalize num / den = q, num % den = r at split small
  dsimp only
  -- twice the numerator lies between odd multiples of the denominator
  have low : 2 * (den * s) ≤ 2 * num + den := by
    have low : 2 * (den * s : ℚ) ≤ 2 * num + den := by linarith
    exact_mod_cast low
  have high : 2 * num ≤ 2 * (den * s) + den := by
    have high : (2 * num : ℚ) ≤ 2 * (den * s) + den := by linarith
    exact_mod_cast high
  have strict : s % 2 = 0 ∨ 2 * (den * s) < 2 * num + den ∧ 2 * num < 2 * (den * s) + den := by
    refine strict.imp_right fun strict => ⟨?_, ?_⟩
    · have low : 2 * (den * s : ℚ) < 2 * num + den := by linarith
      exact_mod_cast low
    · have high : (2 * num : ℚ) < 2 * (den * s) + den := by linarith
      exact_mod_cast high
  rcases Nat.lt_trichotomy q s with less | rfl | more
  · obtain ⟨k, rfl⟩ := Nat.exists_eq_add_of_lt less
    have product : den * (q + k + 1) = den * q + den * k + den := by ring
    obtain rfl : k = 0 := by
      by_contra nonzero
      have multiple : den ≤ den * k := Nat.le_mul_of_pos_right den (Nat.pos_of_ne_zero nonzero)
      omega
    rw [Nat.mul_zero] at product
    rw [if_neg (by omega)]
    split
    · rfl
    · rw [if_neg (by omega)]
  · rw [if_neg (by omega : ¬den < 2 * r)]
    split
    · rfl
    · rw [if_pos (by omega)]
  · obtain ⟨k, rfl⟩ := Nat.exists_eq_add_of_lt more
    have product : den * (s + k + 1) = den * s + den * k + den := by ring
    omega

/-! ### The spacing of values -/

section Spacing

variable {format : BinaryFormat} {x : ℚ} {num den : Nat} {exponent : ℤ}

/-- The values of a format around a quotient are this power of two apart. -/
structure BinaryFormat.Spaced (format : BinaryFormat) (x : ℚ) (exponent : ℤ) : Prop where
  least : format.leastExponent ≤ exponent
  below : x < 2 ^ (format.fractionBits + 1 + exponent)
  above : exponent = format.leastExponent ∨ (2 : ℚ) ^ (format.fractionBits + exponent) ≤ x

/-- A quotient lies between powers of two that the number of binary digits tells. -/
theorem quotient_between (num_pos : num ≠ 0) (den_pos : den ≠ 0) :
    (2 : ℚ) ^ ((num.log2 : ℤ) - den.log2 - 1) < num / den ∧
      (num : ℚ) / den < 2 ^ ((num.log2 : ℤ) - den.log2 + 1) := by
  have positive : (0 : ℚ) < den := by exact_mod_cast Nat.pos_of_ne_zero den_pos
  have powers (n : Nat) (n_pos : n ≠ 0) : (2 : ℚ) ^ (n.log2 : ℤ) ≤ n ∧
      (n : ℚ) < 2 ^ ((n.log2 : ℤ) + 1) := by
    have low := Nat.log2_self_le n_pos
    have high := Nat.lt_log2_self (n := n)
    constructor
    · rw [zpow_natCast]
      exact_mod_cast low
    · rw [← Nat.cast_succ, zpow_natCast]
      exact_mod_cast high
  obtain ⟨numLow, numHigh⟩ := powers num num_pos
  obtain ⟨denLow, denHigh⟩ := powers den den_pos
  constructor
  · rw [lt_div_iff₀ positive]
    calc (2 : ℚ) ^ ((num.log2 : ℤ) - den.log2 - 1) * den
        < 2 ^ ((num.log2 : ℤ) - den.log2 - 1) * 2 ^ ((den.log2 : ℤ) + 1) :=
          mul_lt_mul_of_pos_left denHigh (by positivity)
      _ = 2 ^ (num.log2 : ℤ) := by rw [← zpow_add₀ two_ne_zero]; congr 1; ring
      _ ≤ num := numLow
  · rw [div_lt_iff₀ positive]
    calc (num : ℚ) < 2 ^ ((num.log2 : ℤ) + 1) := numHigh
      _ = 2 ^ ((num.log2 : ℤ) - den.log2 + 1) * 2 ^ (den.log2 : ℤ) := by
          rw [← zpow_add₀ two_ne_zero]; congr 1; ring
      _ ≤ 2 ^ ((num.log2 : ℤ) - den.log2 + 1) * den :=
          mul_le_mul_of_nonneg_left denLow (by positivity)

theorem two_zpow_lt {i j : ℤ} (less : (2 : ℚ) ^ i < 2 ^ j) : i < j :=
  (zpow_lt_zpow_iff_right₀ one_lt_two).mp less

/-- The quotient is scaled by the spacing of the values around it and rounded. -/
theorem BinaryFormat.Spaced.nearest (spaced : format.Spaced ((num : ℚ) / den) exponent)
    (num_pos : num ≠ 0) (den_pos : den ≠ 0) :
    format.nearest num den = min format.infinity
      ((exponent - format.leastExponent).toNat * 2 ^ format.fractionBits +
        roundHalfEven (scaleByTwo num den (-exponent)).1 (scaleByTwo num den (-exponent)).2) := by
  obtain ⟨least, below, above⟩ := spaced
  obtain ⟨low, high⟩ := quotient_between num_pos den_pos
  unfold BinaryFormat.nearest
  rw [if_neg num_pos]
  dsimp only
  generalize guessed : (num.log2 : ℤ) - den.log2 - format.fractionBits - 1 = guess
  -- whether a finer spacing would do as well
  have finer (e : ℤ) : (scaleByTwo num den (-e)).1 / (scaleByTwo num den (-e)).2 <
      Nat.pow 2 (format.fractionBits + 1) ↔
        (num : ℚ) / den < 2 ^ (format.fractionBits + 1 + e) := by
    have positive := scaleByTwo_den_pos (Nat.pos_of_ne_zero den_pos) num (-e)
    rw [Nat.div_lt_iff_lt_mul positive, ← Nat.cast_lt (α := ℚ), Nat.cast_mul,
      ← div_lt_iff₀ (by exact_mod_cast positive), scaleByTwo_quotient, zpow_neg,
      ← div_eq_mul_inv, div_lt_iff₀ (by positivity), Nat.pow_eq, Nat.cast_pow, Nat.cast_ofNat,
      ← zpow_natCast, ← zpow_add₀ two_ne_zero, Nat.cast_succ]
  have choice : (if (scaleByTwo num den (-max format.leastExponent guess)).1 /
      (scaleByTwo num den (-max format.leastExponent guess)).2 <
        Nat.pow 2 (format.fractionBits + 1) then max format.leastExponent guess
      else max format.leastExponent guess + 1) = exponent := by
    have lower := two_zpow_lt (low.trans below)
    by_cases fits : exponent = max format.leastExponent guess
    · rw [← fits, if_pos ((finer _).mpr below)]
    -- the guess is one place too fine
    · have above := above.resolve_left fun same => fits (by omega)
      have upper := two_zpow_lt (above.trans_lt high)
      rw [if_neg]
      · omega
      · rw [finer, not_lt]
        rwa [show (format.fractionBits : ℤ) + 1 + max format.leastExponent guess =
          format.fractionBits + exponent by omega]
  rw [choice]
  rfl

end Spacing

/-! ### Patterns of finite values -/

section Patterns

variable {format : BinaryFormat} {size : Magnitude} {body bits num den : Nat} {negative : Bool}
  {x : ℚ}

/-- A magnitude is that of a pattern without its sign. -/
structure BinaryFormat.Shows (format : BinaryFormat) (body : Nat) (size : Magnitude) : Prop where
  finite : body < format.infinity
  pattern : body = (size.exponent - format.leastExponent).toNat * 2 ^ format.fractionBits +
    size.significand
  least : format.leastExponent ≤ size.exponent
  small : size.significand < 2 ^ (format.fractionBits + 1)
  normal : size.exponent = format.leastExponent ∨ 2 ^ format.fractionBits ≤ size.significand
  narrow : size.narrowBelow = true ↔
    size.significand = 2 ^ format.fractionBits ∧ format.leastExponent < size.exponent

/-- What is read as finite is a sign and a magnitude. -/
theorem BinaryFormat.shows_of_read (reads : format.read bits = .finite negative size) :
    negative = decide (format.signBit ≤ bits) ∧ format.Shows (bits % format.signBit) size := by
  unfold BinaryFormat.read at reads
  dsimp only at reads
  generalize bits % format.signBit = body at reads
  have split := Nat.div_add_mod body (2 ^ format.fractionBits)
  have small := Nat.mod_lt body (Nat.two_pow_pos format.fractionBits)
  rw [Nat.pow_eq] at reads
  generalize body / 2 ^ format.fractionBits = field at reads split
  generalize body % 2 ^ format.fractionBits = fraction at reads split small
  have double : 2 ^ (format.fractionBits + 1) = 2 * 2 ^ format.fractionBits := by ring
  split_ifs at reads with nan infinite subnormal
  all_goals obtain ⟨rfl, rfl⟩ := Reading.finite.inj reads
  · subst subnormal
    refine ⟨rfl, by omega, ?_, le_rfl, by dsimp only; omega, .inl rfl, by simp⟩
    simp only [sub_self, Int.toNat_zero, zero_mul, zero_add]
    omega
  · have place : (format.leastExponent + field - 1 - format.leastExponent).toNat = field - 1 := by
      omega
    refine ⟨rfl, by omega, ?_, ?_, ?_, .inr (Nat.le_add_right _ _), ?_⟩
    · dsimp only
      rw [place, ← split]
      obtain ⟨k, rfl⟩ := Nat.exists_eq_succ_of_ne_zero subnormal
      simp only [Nat.succ_eq_add_one, Nat.add_sub_cancel]
      ring
    · dsimp only
      omega
    · dsimp only
      omega
    · simp only [Bool.and_eq_true, decide_eq_true_eq]
      omega

/-- The reals that round to a value, in units of its last place: up to the middles between it and
its neighbours, and with these if it is even. -/
structure Magnitude.Rounds (size : Magnitude) (x : ℚ) : Prop where
  low : (size.significand : ℚ) - (if size.narrowBelow then 1 / 4 else 1 / 2) ≤ x / 2 ^ size.exponent
  high : x / 2 ^ size.exponent ≤ size.significand + 1 / 2
  ends : size.significand % 2 = 0 ∨
    (size.significand : ℚ) - (if size.narrowBelow then 1 / 4 else 1 / 2) < x / 2 ^ size.exponent ∧
      x / 2 ^ size.exponent < size.significand + 1 / 2

/-- Scaled by a spacing, a quotient is rounded to the natural next to it. -/
theorem roundHalfEven_scaled {exponent : ℤ} {s : Nat} (den_pos : den ≠ 0)
    (low : (s : ℚ) - 1 / 2 ≤ num / den / 2 ^ exponent)
    (high : (num : ℚ) / den / 2 ^ exponent ≤ s + 1 / 2)
    (strict : s % 2 = 0 ∨ (s : ℚ) - 1 / 2 < num / den / 2 ^ exponent ∧
      (num : ℚ) / den / 2 ^ exponent < s + 1 / 2) :
    roundHalfEven (scaleByTwo num den (-exponent)).1 (scaleByTwo num den (-exponent)).2 = s := by
  have scaled := scaleByTwo_quotient num den (-exponent)
  rw [zpow_neg, ← div_eq_mul_inv] at scaled
  rw [← scaled] at low high strict
  exact roundHalfEven_eq (scaleByTwo_den_pos (Nat.pos_of_ne_zero den_pos) _ _) low high strict

theorem two_zpow_add (n : Nat) (e : ℤ) : (2 : ℚ) ^ (n + e) = 2 ^ n * 2 ^ e := by
  rw [zpow_add₀ two_ne_zero, zpow_natCast]

/-- Where the values around a quotient are as far apart as those around the magnitude that it rounds
to, it is rounded to the significand. -/
theorem BinaryFormat.Shows.nearest_within (shows : format.Shows body size)
    (rounds : size.Rounds ((num : ℚ) / den)) (num_pos : num ≠ 0) (den_pos : den ≠ 0)
    (within : size.exponent = format.leastExponent ∨
      (2 : ℚ) ^ (format.fractionBits + size.exponent) ≤ num / den) :
    format.nearest num den = body := by
  obtain ⟨low, high, ends⟩ := rounds
  have unit : (0 : ℚ) < 2 ^ size.exponent := by positivity
  have gap : (if size.narrowBelow then 1 / 4 else 1 / 2 : ℚ) ≤ 1 / 2 := by split <;> norm_num
  have small : (size.significand : ℚ) + 1 ≤ 2 ^ (format.fractionBits + 1) := by
    exact_mod_cast shows.small
  have spaced : format.Spaced ((num : ℚ) / den) size.exponent := by
    refine ⟨shows.least, ?_, within⟩
    rw [← Nat.cast_add_one, two_zpow_add, ← div_lt_iff₀ unit]
    linarith
  have finite := shows.finite
  rw [shows.pattern] at finite ⊢
  rw [spaced.nearest num_pos den_pos, roundHalfEven_scaled den_pos (by linarith) high
    (ends.imp_right fun strict => ⟨by linarith [strict.1], strict.2⟩), min_eq_right finite.le]

/-- Below the least magnitude of a spacing the values are half as far apart, and a quotient there
that rounds to it is rounded to a significand of one place more. -/
theorem BinaryFormat.Shows.nearest_below (shows : format.Shows body size)
    (rounds : size.Rounds ((num : ℚ) / den)) (num_pos : num ≠ 0) (den_pos : den ≠ 0)
    (larger : size.exponent ≠ format.leastExponent)
    (lower : (num : ℚ) / den / 2 ^ size.exponent < 2 ^ format.fractionBits) :
    format.nearest num den = body := by
  obtain ⟨finite, pattern, least, -, normal, narrow⟩ := shows
  have low := rounds.low
  have unit : (0 : ℚ) < 2 ^ size.exponent := by positivity
  have gap : (if size.narrowBelow then 1 / 4 else 1 / 2 : ℚ) ≤ 1 / 2 := by split <;> norm_num
  have above := normal.resolve_left larger
  have least_of_spacing : size.significand = 2 ^ format.fractionBits := by
    by_contra other
    have more : ((2 ^ format.fractionBits : Nat) : ℚ) + 1 ≤ size.significand := by
      exact_mod_cast Nat.lt_of_le_of_ne above (Ne.symm other)
    push_cast at more
    linarith
  rw [narrow.mpr ⟨least_of_spacing, by omega⟩, if_pos rfl, least_of_spacing] at low
  push_cast at low
  have one : (1 : ℚ) ≤ 2 ^ format.fractionBits := one_le_pow₀ one_le_two
  have finer : (num : ℚ) / den / 2 ^ (size.exponent - 1) =
      2 * (num / den / 2 ^ size.exponent) := by
    rw [zpow_sub_one₀ two_ne_zero]
    field_simp
  have spaced : format.Spaced ((num : ℚ) / den) (size.exponent - 1) := by
    refine ⟨by omega, ?_, .inr ?_⟩
    · rw [show (format.fractionBits : ℤ) + 1 + (size.exponent - 1) =
        format.fractionBits + size.exponent by ring, two_zpow_add, ← div_lt_iff₀ unit]
      exact lower
    · rw [two_zpow_add, ← le_div_iff₀ (by positivity), finer]
      linarith
  have rounded : roundHalfEven (scaleByTwo num den (-(size.exponent - 1))).1
      (scaleByTwo num den (-(size.exponent - 1))).2 = 2 ^ (format.fractionBits + 1) := by
    have double : ((2 ^ (format.fractionBits + 1) : Nat) : ℚ) = 2 * 2 ^ format.fractionBits := by
      push_cast
      ring
    refine roundHalfEven_scaled den_pos ?_ ?_ (.inl (by rw [pow_succ]; omega))
    all_goals rw [double, finer]; linarith
  obtain ⟨k, place⟩ := Int.eq_ofNat_of_zero_le
    (show 0 ≤ size.exponent - 1 - format.leastExponent by omega)
  have places : (size.exponent - format.leastExponent).toNat = k + 1 := by omega
  have sum : k * 2 ^ format.fractionBits + 2 ^ (format.fractionBits + 1) =
      (k + 1) * 2 ^ format.fractionBits + 2 ^ format.fractionBits := by ring
  rw [pattern, places, least_of_spacing] at finite
  rw [spaced.nearest num_pos den_pos, rounded, place, Int.toNat_natCast, sum,
    min_eq_right finite.le, pattern, places, least_of_spacing]

/-- What rounds to a value is rounded to its pattern. -/
theorem BinaryFormat.Shows.nearest (shows : format.Shows body size)
    (rounds : size.Rounds ((num : ℚ) / den)) (num_pos : num ≠ 0) (den_pos : den ≠ 0) :
    format.nearest num den = body := by
  by_cases within : size.exponent = format.leastExponent ∨
      (2 : ℚ) ^ (format.fractionBits + size.exponent) ≤ num / den
  · exact shows.nearest_within rounds num_pos den_pos within
  · obtain ⟨larger, lower⟩ := not_or.mp within
    have unit : (0 : ℚ) < 2 ^ size.exponent := by positivity
    rw [two_zpow_add, ← le_div_iff₀ unit, not_le] at lower
    exact shows.nearest_below rounds num_pos den_pos larger lower

end Patterns

end NodeScript
