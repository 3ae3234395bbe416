import NodeScript.Numeric.Decimal
import NodeScript.Proofs.Numeric.Shortest
import NodeScript.Proofs.Text.Boundary

/-!
Numbers as stored documents hold them, read back. The numeral of a finite value is that of its
shortest decimal, which rounds to the value.
-/

namespace NodeScript

/-! ### Digits -/

section Digits

theorem isDecimalDigit_iff {c : Char} : isDecimalDigit c = true ↔ 48 ≤ c.toNat ∧ c.toNat ≤ 57 := by
  simp only [isDecimalDigit, Bool.and_eq_true, decide_eq_true_eq]
  exact Iff.rfl

/-- What is no digit is another character than a digit. -/
theorem ne_of_isDecimalDigit {c d : Char} (digit : isDecimalDigit c = true)
    (other : isDecimalDigit d = false) : c ≠ d := by
  rintro rfl
  exact absurd digit (by simp [other])

theorem isDecimalDigit_of_isDigit {c : Char} (digit : c.isDigit = true) :
    isDecimalDigit c = true := by
  rw [Char.isDigit, Bool.and_eq_true, decide_eq_true_eq, decide_eq_true_eq, ge_iff_le,
    UInt32.le_iff_toNat_le, UInt32.le_iff_toNat_le] at digit
  exact isDecimalDigit_iff.mpr digit

theorem isDecimalDigit_natDigits {n : Nat} {c : Char} (member : c ∈ natDigits n) :
    isDecimalDigit c = true :=
  isDecimalDigit_of_isDigit (Nat.isDigit_of_mem_toDigits (by decide) (by decide) member)

theorem digitsValue_append (a b : List Char) :
    digitsValue (a ++ b) = digitsValue a * 10 ^ b.length + digitsValue b := by
  induction b using List.reverseRecOn with
  | nil => simp [digitsValue]
  | append_singleton b c ih =>
    have last (l : List Char) : digitsValue (l ++ [c]) = 10 * digitsValue l + digitValue c := by
      rw [digitsValue, digitsValue, List.foldl_append]
      rfl
    rw [← List.append_assoc, last, last, ih, List.length_append, List.length_singleton]
    ring

theorem digitsValue_natDigits (n : Nat) : digitsValue (natDigits n) = n :=
  Nat.ofDigitChars_ten_toDigits

theorem digitsValue_zeros (k : Nat) : digitsValue (List.replicate k '0') = 0 := by
  induction k with
  | zero => rfl
  | succ k ih => rw [List.replicate_succ', digitsValue_append, ih]; rfl

end Digits

/-! ### Decimals -/

/-- Digits in front of a point and behind it, which have the value of a decimal. -/
structure Decimal.Written (d : Decimal) (whole fraction : List Char) : Prop where
  whole_ne : whole ≠ []
  digits : ∀ c ∈ whole ++ fraction, isDecimalDigit c = true
  value : (digitsValue (whole ++ fraction) : ℚ) * 10 ^ (-fraction.length : ℤ) = d.value
  places : (fraction.length : ℤ) ≤ max 1 (-d.exponent)

/-- A decimal is laid out as digits with a point among them. -/
theorem NumberStyle.layout_stored (d : Decimal) :
    ∃ whole fraction, NumberStyle.stored.layout d = whole ++ '.' :: fraction ∧
      d.Written whole fraction := by
  unfold NumberStyle.layout
  rw [if_neg (by simp [NumberStyle.stored])]
  have zero : isDecimalDigit '0' = true := by decide
  have zeros (k : Nat) : ∀ c ∈ List.replicate k '0', isDecimalDigit c = true := by
    intro c member
    rwa [List.eq_of_mem_replicate member]
  have own : ∀ c ∈ natDigits d.digits, isDecimalDigit c = true := fun c => isDecimalDigit_natDigits
  split
  · rename_i none
    refine ⟨['0'], ['0'], rfl, by simp, by simp [zero], ?_, by simp⟩
    simp [Decimal.value, none, digitsValue, digitValue]
  unfold Decimal.positional
  dsimp only
  split
  · rename_i whole
    refine ⟨natDigits d.digits ++ List.replicate d.exponent.toNat '0', ['0'], by simp [stored],
      by simp [natDigits, Nat.toDigits_ne_nil], ?_, ?_, by simp⟩
    · simp only [List.forall_mem_append]
      exact ⟨⟨own, zeros _⟩, by simp [zero]⟩
    · obtain ⟨n, places⟩ := Int.eq_ofNat_of_zero_le whole
      rw [digitsValue_append, digitsValue_append, digitsValue_natDigits, digitsValue_zeros,
        Decimal.value, places]
      simp [digitsValue, digitValue]
  · rename_i negative
    have places : d.exponent = -(d.exponent.natAbs : ℤ) := by omega
    split
    · rename_i among
      refine ⟨_, _, rfl, ?_, ?_, ?_, ?_⟩
      · rw [ne_eq, List.take_eq_nil_iff, not_or]
        exact ⟨by omega, Nat.toDigits_ne_nil⟩
      · rwa [List.take_append_drop]
      · rw [List.take_append_drop, digitsValue_natDigits, List.length_drop, Decimal.value,
          Nat.sub_sub_self among.le, ← places]
      · rw [List.length_drop]
        omega
    · refine ⟨['0'], List.replicate (d.exponent.natAbs - (natDigits d.digits).length) '0' ++
        natDigits d.digits, by simp, by simp, ?_, ?_, ?_⟩
      · simp only [List.forall_mem_append]
        exact ⟨by simp [zero], zeros _, own⟩
      · rw [digitsValue_append, digitsValue_append, digitsValue_natDigits, digitsValue_zeros,
          Decimal.value, List.length_append, List.length_replicate, Nat.sub_add_cancel (by omega),
          ← places]
        simp [digitsValue, digitValue]
      · rw [List.length_append, List.length_replicate]
        omega

theorem readNumeral_pointed {whole fraction : List Char} (whole_ne : whole ≠ [])
    (digits : ∀ c ∈ whole ++ fraction, isDecimalDigit c = true) (negative : Bool) :
    readNumeral ((if negative then ['-'] else []) ++ (whole ++ '.' :: fraction)) =
      some ⟨negative, digitsValue (whole ++ fraction), -fraction.length⟩ := by
  obtain ⟨front, behind⟩ := List.forall_mem_append.mp digits
  have sign : splitSign ((if negative then ['-'] else []) ++ (whole ++ '.' :: fraction)) =
      (negative, whole ++ '.' :: fraction) := by
    cases negative with
    | true => rfl
    | false =>
      obtain ⟨c, rest, rfl⟩ := List.exists_cons_of_ne_nil whole_ne
      have digit := front c List.mem_cons_self
      unfold splitSign
      split
      · rename_i same
        exact absurd (List.cons.inj same).1 (ne_of_isDecimalDigit digit (by decide))
      · rename_i same
        exact absurd (List.cons.inj same).1 (ne_of_isDecimalDigit digit (by decide))
      · rfl
  have point : ∀ c ∈ ('.' :: fraction).head?, isDecimalDigit c = false := by
    rintro c ⟨⟩
    decide
  obtain ⟨taken, left⟩ := span_append front point
  obtain ⟨taken', left'⟩ := span_append (b := []) behind (by simp)
  rw [List.append_nil] at taken' left'
  unfold readNumeral
  rw [sign]
  dsimp only
  rw [taken, left]
  simp [taken', left', whole_ne]

/-! ### Values -/

section Values

variable {format : BinaryFormat} {size : Magnitude} {body bits : Nat} {negative : Bool}

/-- The exponents of a format are neither too small nor too large for its decimals to be told
without computing powers. -/
structure BinaryFormat.Moderate (format : BinaryFormat) : Prop where
  least : -1100 ≤ format.leastExponent
  greatest : format.fractionBits + 1 + format.leastExponent + 2 ^ format.exponentBits ≤ 1100

theorem BinaryFormat.single_moderate : BinaryFormat.single.Moderate := ⟨by decide, by decide⟩

theorem BinaryFormat.double_moderate : BinaryFormat.double.Moderate := ⟨by decide, by decide⟩

theorem BinaryFormat.Shows.exponent_lt (shows : format.Shows body size) :
    size.exponent < format.leastExponent + 2 ^ format.exponentBits := by
  have finite := shows.finite
  have pattern := shows.pattern
  unfold BinaryFormat.infinity at finite
  simp only [Nat.pow_eq] at finite
  have places : (size.exponent - format.leastExponent).toNat * 2 ^ format.fractionBits <
      (2 ^ format.exponentBits - 1) * 2 ^ format.fractionBits := by omega
  have places := Nat.lt_of_mul_lt_mul_right places
  have cast : ((2 ^ format.exponentBits : Nat) : ℤ) = 2 ^ format.exponentBits := by push_cast; rfl
  omega

/-- A decimal that rounds to a value is read as its pattern. -/
theorem BinaryFormat.Shows.ofDecimal (shows : format.Shows body size) (moderate : format.Moderate)
    {digits : Nat} {exponent : ℤ} (rounds : size.Rounds ((digits : ℚ) * 10 ^ exponent))
    (positive : size.significand ≠ 0) (low : -1100 ≤ exponent) (high : exponent ≤ 0) :
    format.ofDecimal digits exponent = body := by
  have unit : (0 : ℚ) < 2 ^ size.exponent := by positivity
  have digits_pos : digits ≠ 0 := by
    rintro rfl
    have one : (1 : ℚ) ≤ size.significand := by exact_mod_cast Nat.one_le_iff_ne_zero.mpr positive
    have gap : (if size.narrowBelow then 1 / 4 else 1 / 2 : ℚ) ≤ 1 / 2 := by split <;> norm_num
    have below := rounds.low
    simp at below
    linarith
  -- the digits have not so many places that the guess of the power of ten leaves its bounds
  have few : digits.log2 < 5500 := by
    have high' := rounds.high
    have upper := shows.exponent_lt
    have greatest := moderate.greatest
    have small : (size.significand : ℚ) + 1 ≤ 2 ^ (format.fractionBits + 1) := by
      exact_mod_cast shows.small
    obtain ⟨n, place⟩ := Int.eq_ofNat_of_zero_le (Int.neg_nonneg_of_nonpos high)
    obtain rfl : exponent = -n := by omega
    have bound : (digits : ℚ) < 2 ^ 5500 := by
      calc (digits : ℚ) = digits * 10 ^ (-n : ℤ) * 10 ^ n := by
            rw [zpow_neg, zpow_natCast]; field_simp
        _ < 2 ^ (format.fractionBits + 1) * 2 ^ size.exponent * 10 ^ n := by
            refine mul_lt_mul_of_pos_right ?_ (by positivity)
            rw [← div_lt_iff₀ unit]
            linarith
        _ ≤ 2 ^ (1100 : ℤ) * (2 ^ 4) ^ 1100 := by
            refine mul_le_mul ?_ ?_ (by positivity) (by positivity)
            · rw [← zpow_natCast, ← zpow_add₀ two_ne_zero]
              exact zpow_le_zpow_right₀ one_le_two (by push_cast; omega)
            · exact (pow_le_pow_left₀ (by norm_num) (by norm_num) n).trans
                (pow_le_pow_right₀ (by norm_num) (by omega))
        _ = 2 ^ 5500 := by rw [zpow_ofNat, ← pow_mul, ← pow_add]
    rw [Nat.log2_lt digits_pos]
    exact_mod_cast bound
  unfold BinaryFormat.ofDecimal
  rw [if_neg digits_pos]
  dsimp only
  rw [if_neg (by omega), if_neg (by omega)]
  have quotient : ((digits * Nat.pow 10 exponent.toNat : Nat) : ℚ) /
      (Nat.pow 10 (-exponent).toNat : Nat) = digits * 10 ^ exponent := by
    rw [← pow_toNat_div 10 exponent]
    simp only [Nat.pow_eq, Nat.cast_mul, Nat.cast_pow, Nat.cast_ofNat]
    ring
  rw [← quotient] at rounds
  exact shows.nearest rounds (Nat.mul_ne_zero digits_pos (pow_ne_zero _ (by norm_num)))
    (pow_ne_zero _ (by norm_num))

/-- A pattern is its sign in front of the rest. -/
theorem BinaryFormat.withSign_mod (within : bits < 2 * format.signBit) :
    format.withSign (decide (format.signBit ≤ bits)) (bits % format.signBit) = bits := by
  unfold BinaryFormat.withSign
  split
  · rename_i above
    have above : format.signBit ≤ bits := by simpa using above
    rw [Nat.mod_eq_sub_mod above, Nat.mod_eq_of_lt (by omega)]
    omega
  · rename_i below
    exact Nat.mod_eq_of_lt (by simpa using below)

/-- The digits of a finite value are read as its pattern. -/
theorem BinaryFormat.ofDecimal_written (moderate : format.Moderate)
    (reads : format.read bits = .finite negative size) (within : bits < 2 * format.signBit)
    {whole fraction : List Char} (written : size.shortest.Written whole fraction) :
    format.withSign negative
      (format.ofDecimal (digitsValue (whole ++ fraction)) (-fraction.length)) = bits := by
  obtain ⟨rfl, shows⟩ := shows_of_read reads
  have least := moderate.least.trans shows.least
  suffices pattern : format.ofDecimal (digitsValue (whole ++ fraction)) (-fraction.length) =
      bits % format.signBit by
    rw [pattern, withSign_mod within]
  have value := written.value
  by_cases positive : size.significand = 0
  · have none : digitsValue (whole ++ fraction) = 0 := by
      have power : (10 : ℚ) ^ (-fraction.length : ℤ) ≠ 0 := by positivity
      simpa [Magnitude.shortest, positive, Decimal.value, power] using value
    have pattern := shows.pattern
    have exponent := shows.normal.resolve_right (by
      rw [positive, Nat.le_zero]
      exact (Nat.two_pow_pos _).ne')
    rw [positive, exponent, sub_self] at pattern
    simp [none, pattern, BinaryFormat.ofDecimal]
  · obtain ⟨rounds, places⟩ := Magnitude.shortest_spec positive least
    have few := written.places
    rw [← value] at rounds
    exact shows.ofDecimal moderate rounds positive (by omega) (by omega)

end Values

/-- The text of a finite value: digits with a point among them, behind the sign. -/
theorem NumberStyle.render_finite (negative : Bool) (size : Magnitude) :
    ∃ whole fraction, size.shortest.Written whole fraction ∧
      (NumberStyle.stored.render (.finite negative size)).toList =
        (if negative then ['-'] else []) ++ (whole ++ '.' :: fraction) := by
  obtain ⟨whole, fraction, laid, written⟩ := layout_stored size.shortest
  refine ⟨whole, fraction, written, ?_⟩
  unfold NumberStyle.render
  dsimp only
  rw [laid]
  cases negative <;> simp

end NodeScript
