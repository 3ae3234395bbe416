import NodeScript.Document.Numeral
import NodeScript.Proofs.Document.Steps

/-!
Numbers and words of stored documents, read back. No numeral is marked with a base or names its
width, so a written integer is its digits behind the sign, and a floating point number is a word or
digits with a point among them.
-/

namespace NodeScript

/-! ### Integers -/

section Integers

variable {width : IntegerWidth} {negative : Bool} {c : Char} {digits rest : List Char}

/-- A natural behind a sign. -/
def withMinus (negative : Bool) (n : Nat) : Int := if negative then -n else n

theorem withMinus_true (n : Nat) : withMinus true n = -n := rfl

theorem withMinus_false (n : Nat) : withMinus false n = n := rfl

theorem withMinus_natAbs (n : Int) : withMinus (decide (n < 0)) n.natAbs = n := by
  unfold withMinus
  split
  · rename_i below
    have below : n < 0 := by simpa using below
    omega
  · rename_i above
    have above : ¬ n < 0 := by simpa using above
    omega

/-- A width that holds an integer holds those that are nearer to zero. -/
theorem IntegerWidth.holds_of_le {m n : Nat} (held : width.holds (withMinus negative n) = true)
    (le : m ≤ n) : width.holds (withMinus negative m) = true := by
  have least : width.least ≤ 0 := by
    unfold IntegerWidth.least
    split
    · exact Int.neg_nonpos_of_nonneg (Int.natCast_nonneg _)
    · exact le_rfl
  have greatest : 0 ≤ width.greatest := by
    unfold IntegerWidth.greatest
    have positive : 0 < Nat.pow 2 (if width.signed then width.bits - 1 else width.bits) :=
      Nat.two_pow_pos _
    omega
  unfold IntegerWidth.holds at held ⊢
  rw [Bool.and_eq_true, decide_eq_true_iff, decide_eq_true_iff] at held ⊢
  cases negative <;> simp only [withMinus_true, withMinus_false] at held ⊢ <;> omega

theorem hexValue?_digit (digit : isDecimalDigit c = true) :
    hexValue? c = some (digitValue c) ∧ digitValue c < 10 := by
  refine ⟨?_, ?_⟩
  · unfold hexValue?
    exact if_pos digit
  · have bounds := isDecimalDigit_iff.mp digit
    unfold digitValue
    have zero : '0'.toNat = 48 := rfl
    omega

/-- Decimal digits are read one by one; no value on the way is out of bounds. -/
theorem signedDigits_read (decimal : ∀ c ∈ digits, isDecimalDigit c = true) (value : Nat)
    (held : width.holds
      (withMinus negative (value * 10 ^ digits.length + digitsValue digits)) = true) :
    signedDigits width negative 10 rest digits (withMinus negative value) =
      .ok (withMinus negative (value * 10 ^ digits.length + digitsValue digits), rest) := by
  induction digits generalizing value with
  | nil => simp [signedDigits, digitsValue]
  | cons c digits ih =>
    obtain ⟨digit, decimal⟩ := List.forall_mem_cons.mp decimal
    obtain ⟨read, small⟩ := hexValue?_digit digit
    have total : value * 10 ^ (c :: digits).length + digitsValue (c :: digits) =
        (10 * value + digitValue c) * 10 ^ digits.length + digitsValue digits := by
      have first : digitsValue [c] = digitValue c := by simp [digitsValue]
      rw [← List.singleton_append, digitsValue_append, first, List.length_append,
        List.length_singleton]
      ring
    rw [total] at held ⊢
    have upTo : 10 * value + digitValue c ≤
        (10 * value + digitValue c) * 10 ^ digits.length + digitsValue digits :=
      (Nat.le_mul_of_pos_right _ (by positivity)).trans (Nat.le_add_right _ _)
    have other : c ≠ '_' := ne_of_isDecimalDigit digit (by decide)
    have shifted : ((10 : Nat) : Int) * withMinus negative value =
        withMinus negative (10 * value) := by
      unfold withMinus
      split <;> push_cast <;> ring
    have next : (if negative then withMinus negative (10 * value) - digitValue c
        else withMinus negative (10 * value) + digitValue c) =
          withMinus negative (10 * value + digitValue c) := by
      unfold withMinus
      split <;> push_cast <;> ring
    unfold signedDigits
    rw [if_neg other]
    dsimp only
    rw [shifted, IntegerWidth.holds_of_le held ((Nat.le_add_right _ _).trans upTo),
      if_neg (by decide), read]
    dsimp only
    rw [next, if_neg (by omega), IntegerWidth.holds_of_le held upTo, if_neg (by decide)]
    exact ih decimal _ held

theorem markedBase?_decimal (decimal : ∀ c ∈ digits, isDecimalDigit c = true)
    (closes : Closes rest) : markedBase? (digits ++ rest) = none := by
  have second {c : Char} {more : List Char} (text : digits ++ rest = '0' :: c :: more) :
      isDecimalDigit c = true ∨ c ∈ [',', ')', ':'] := by
    cases digits with
    | nil =>
      obtain rfl : rest = '0' :: c :: more := text
      exact absurd (closes '0' rfl) (by decide)
    | cons first digits =>
      obtain ⟨-, text⟩ := List.cons.inj text
      cases digits with
      | nil =>
        obtain rfl : rest = c :: more := text
        exact .inr (closes c rfl)
      | cons second digits =>
        obtain ⟨rfl, -⟩ := List.cons.inj text
        exact .inl (decimal second (by simp))
  unfold markedBase?
  split
  · rename_i text
    exact absurd (second text) (by decide)
  · rename_i text
    exact absurd (second text) (by decide)
  · rename_i text
    exact absurd (second text) (by decide)
  · rfl

theorem isIntegerChar_digit (digit : isDecimalDigit c = true) : isIntegerChar c = true := by
  simp [isIntegerChar, (hexValue?_digit digit).1]

theorem Closes.stopsInteger (closes : Closes rest) : ∀ c ∈ rest.head?, isIntegerChar c = false :=
  closes.stops (by decide)

namespace Scan

theorem widthAt?_closes (closes : Closes rest) : widthAt? rest = none := by
  have letters : ∀ width ∈ IntegerWidth.all, ∃ c more, width.name.toList = c :: more ∧
      c ∉ [',', ')', ':'] := by
    intro width member
    unfold IntegerWidth.name
    cases width.signed with
    | true => exact ⟨'i', natDigits width.bits, by simp, by decide⟩
    | false => exact ⟨'u', natDigits width.bits, by simp, by decide⟩
  unfold widthAt?
  rw [List.findSome?_eq_none_iff]
  intro width member
  obtain ⟨c, more, name, other⟩ := letters width member
  rw [name, isPrefixOf?_other]
  intro first
  exact other (closes c first)

theorem integerDigits_read (decimal : ∀ c ∈ digits, isDecimalDigit c = true) (ne : digits ≠ [])
    (closes : Closes rest) (held : width.holds (withMinus negative (digitsValue digits)) = true) :
    Takes (integerDigits width negative) (digits ++ rest)
      (withMinus negative (digitsValue digits)) rest := by
  have span := span_append (fun c member => isIntegerChar_digit (decimal c member))
    closes.stopsInteger
  have leading : digits.head? ≠ some '_' := by
    intro first
    exact absurd (decimal '_' (List.mem_of_mem_head? first)) (by decide)
  have nothing : withMinus negative 0 = 0 := by
    cases negative <;> rfl
  unfold integerDigits
  refine (Takes.get _).bind ?_
  rw [markedBase?_decimal decimal closes]
  dsimp only
  refine (Takes.pure 10 _).bind ((Takes.get _).bind ?_)
  rw [span.1, span.2, if_neg (by simpa using ne), if_neg leading]
  have zero : 0 * 10 ^ digits.length + digitsValue digits = digitsValue digits := by simp
  have read : signedDigits width negative 10 rest digits (withMinus negative 0) = _ :=
    signedDigits_read decimal 0 (by rwa [zero])
  rw [nothing, zero] at read
  exact read

/-- The text of an integer that its width holds stands for it. -/
theorem integer_read {n : Int} (held : width.holds n = true) (closes : Closes rest) :
    Takes (integer (.ofWidth width)) ((intText n).toList ++ rest) n rest := by
  have decimal : ∀ c ∈ natDigits n.natAbs, isDecimalDigit c = true :=
    fun c => isDecimalDigit_natDigits
  have value := withMinus_natAbs n
  have ne : natDigits n.natAbs ≠ [] := Nat.toDigits_ne_nil
  rw [← digitsValue_natDigits n.natAbs] at value
  have digits : Takes (integerDigits width (decide (n < 0))) (natDigits n.natAbs ++ rest)
      (withMinus (decide (n < 0)) (digitsValue (natDigits n.natAbs))) rest :=
    integerDigits_read decimal ne closes (by rwa [value])
  rw [value] at digits
  have span := span_append (fun c member => isIntegerChar_digit (decimal c member))
    closes.stopsInteger
  unfold integer
  by_cases below : n < 0
  · have written : (intText n).toList ++ rest = '-' :: (natDigits n.natAbs ++ rest) := by
      simp [intText, below]
    rw [written]
    refine (Takes.get _).bind ((peek_cons '-' _).bind ((take?_other (by simp)).bind ?_))
    rw [if_neg (by decide)]
    dsimp only
    rw [if_pos (by decide)]
    refine (next_cons '-' _).bind ((Takes.get _).bind ?_)
    rw [span.2, widthAt?_closes closes]
    rw [decide_eq_true below] at digits
    exact digits
  · have written : (intText n).toList = natDigits n.natAbs := by simp [intText, below]
    obtain ⟨first, more, chars⟩ := List.exists_cons_of_ne_nil ne
    have digit := decimal first (chars ▸ .head _)
    have noMinus : first ≠ '-' := ne_of_isDecimalDigit digit (by decide)
    have noPlus : first ≠ '+' := ne_of_isDecimalDigit digit (by decide)
    rw [written]
    rw [chars, List.cons_append] at digits span ⊢
    refine (Takes.get _).bind ((peek_cons first _).bind ((take?_other ?_).bind ?_))
    · simpa using ne_of_isDecimalDigit digit (by decide : isDecimalDigit 'b' = false)
    rw [if_neg (by decide)]
    dsimp only
    rw [if_neg (by simp [noMinus, noPlus])]
    refine (Takes.get _).bind ?_
    rw [span.2, widthAt?_closes closes, decide_eq_false noMinus]
    rw [decide_eq_false below] at digits
    exact digits

end Scan

end Integers

/-! ### Floating point numbers -/

section Floats

variable {wanted : FloatWidth} {negative : Bool} {whole fraction digits rest : List Char} {c : Char}

theorem isFloatChar_digit (digit : isDecimalDigit c = true) : isFloatChar c = true := by
  simp [isFloatChar, digit]

theorem dropUnderscores_plain (plain : ∀ c ∈ digits, c ≠ '_') (allowed : Bool) :
    dropUnderscores rest allowed digits = .ok digits := by
  induction digits generalizing allowed with
  | nil => rfl
  | cons c digits ih =>
    obtain ⟨other, plain⟩ := List.forall_mem_cons.mp plain
    unfold dropUnderscores
    rw [if_neg other]
    dsimp only
    rw [ih plain]
    rfl

namespace Scan

theorem floatWidth?_closes (closes : Closes rest) : Takes floatWidth? rest none rest := by
  have other {word : String} (letter : word.toList.head? = some 'f') :
      Takes (word? word) rest false rest := by
    refine word?_other fun found => ?_
    obtain ⟨behind, rfl⟩ := found
    exact absurd (closes 'f' (by rw [List.head?_append, letter]; rfl)) (by decide)
  unfold floatWidth?
  exact (other (by decide)).bind ((other (by decide)).bind (.pure _ _))

/-- The words for numbers that no numeral denotes are taken as a whole. -/
theorem floatWord?_word {r : Reading} (noNumeral : ∀ negative size, r ≠ .finite negative size)
    (ends : NameEnds rest) :
    Takes floatWord? ((NumberStyle.stored.render r).toList ++ rest) (some (r, none)) rest := by
  unfold Takes floatWord?
  cases r with
  | finite negative size => exact absurd rfl (noNumeral negative size)
  | nan negative =>
    cases negative <;>
      simp [floatWords, NumberStyle.render, NumberStyle.stored, List.isPrefixOf?, ends.wordEnds]
  | infinite negative =>
    cases negative <;>
      simp [floatWords, NumberStyle.render, List.isPrefixOf?, ends.wordEnds]

/-- A sign in front of a digit is no start of a word. -/
theorem floatWord?_numeral (digit : isDecimalDigit c = true) (negative : Bool) (rest : List Char) :
    Takes floatWord? ((if negative then ['-'] else []) ++ c :: rest) none
      ((if negative then ['-'] else []) ++ c :: rest) := by
  have letters : c ≠ 'i' ∧ c ≠ 'N' ∧ c ≠ '+' ∧ c ≠ '-' := by
    refine ⟨?_, ?_, ?_, ?_⟩ <;> exact ne_of_isDecimalDigit digit (by decide)
  unfold Takes floatWord?
  cases negative <;> simp [floatWords, List.isPrefixOf?, letters.1.symm, letters.2.1.symm,
    letters.2.2.1.symm, letters.2.2.2.symm]

theorem floatOfWidth_taken {text : List Char} {value : FloatText}
    (taken : Takes float text (value, none) rest) :
    Takes (floatOfWidth wanted) text value rest := by
  unfold floatOfWidth
  exact (Takes.get text).bind (taken.bind ((Takes.get rest).bind (.pure _ _)))

theorem float_word {r : Reading} (noNumeral : ∀ negative size, r ≠ .finite negative size)
    (closes : Closes rest) :
    Takes float ((NumberStyle.stored.render r).toList ++ rest) (.word r, none) rest := by
  unfold float
  exact (floatWord?_word noNumeral closes.nameEnds).bind (.pure _ _)

theorem float_numeral {text : List Char} {numeral : Numeral}
    (noWord : Takes floatWord? (text ++ rest) none (text ++ rest))
    (kinds : ∀ c ∈ text, isFloatChar c = true ∧ c ≠ '_')
    (read : readNumeral text = some numeral) (closes : Closes rest) :
    Takes float (text ++ rest) (.numeral numeral, none) rest := by
  have span := span_append (b := rest) (fun c member => (kinds c member).1)
    (closes.stops (by decide))
  have plain : dropUnderscores rest false text = .ok text :=
    dropUnderscores_plain (fun c member => (kinds c member).2) false
  have ne : text ≠ [] := by
    rintro rfl
    exact nomatch read
  have leading : text.head? ≠ some '_' := fun first =>
    (kinds '_' (List.mem_of_mem_head? first)).2 rfl
  have digits : Takes (liftM (dropUnderscores rest false text)) (text ++ rest) text
      (text ++ rest) := by
    rw [plain]
    rfl
  unfold float
  refine noWord.bind ((Takes.get _).bind ?_)
  dsimp only
  rw [span.1, span.2, if_neg (by simpa using ne), if_neg leading]
  refine digits.bind ?_
  rw [read]
  exact (Takes.set _ _).bind ((floatWidth?_closes closes).bind (.pure _ _))

/-- Digits with a point among them, behind a sign, are taken as a numeral. -/
theorem float_pointed (ne : whole ≠ [])
    (decimal : ∀ c ∈ whole ++ fraction, isDecimalDigit c = true) (negative : Bool)
    (closes : Closes rest) :
    Takes float ((if negative then ['-'] else []) ++ (whole ++ '.' :: fraction) ++ rest)
      (.numeral ⟨negative, digitsValue (whole ++ fraction), -fraction.length⟩, none) rest := by
  obtain ⟨front, behind⟩ := List.forall_mem_append.mp decimal
  have digit (c : Char) (decimal : isDecimalDigit c = true) : isFloatChar c = true ∧ c ≠ '_' :=
    ⟨isFloatChar_digit decimal, ne_of_isDecimalDigit decimal (by decide)⟩
  refine float_numeral ?_ ?_ (readNumeral_pointed ne decimal negative) closes
  · obtain ⟨first, more, rfl⟩ := List.exists_cons_of_ne_nil ne
    rw [List.append_assoc]
    exact floatWord?_numeral (front first (.head _)) negative _
  · simp only [List.forall_mem_append, List.forall_mem_cons]
    refine ⟨?_, fun c member => digit c (front c member), by decide,
      fun c member => digit c (behind c member)⟩
    cases negative <;> simp [isFloatChar]

end Scan

end Floats

/-! ### Values of floating point numbers -/

namespace BinaryFormat

/-- The pattern that a written number stands for. -/
def ofText (format : BinaryFormat) : FloatText → Nat
  | .word reading => format.ofReading reading
  | .numeral n => format.withSign n.negative (format.ofDecimal n.digits n.exponent)

/-- The pattern, or the standard one of its sign if it stands for no number. -/
def quieted (format : BinaryFormat) (bits : Nat) : Nat :=
  match format.read bits with
  | .nan negative => format.ofReading (.nan negative)
  | _ => bits

variable {format : BinaryFormat} {bits : Nat} {rest : List Char}

theorem ofReading_infinite {negative : Bool} (reads : format.read bits = .infinite negative)
    (within : bits < 2 * format.signBit) : format.ofReading (.infinite negative) = bits := by
  unfold read at reads
  dsimp only at reads
  split at reads
  · exact nomatch reads
  split at reads
  · rename_i body
    obtain rfl := Reading.infinite.inj reads
    unfold ofReading
    dsimp only
    rw [← body, withSign_mod within]
  · split at reads <;> exact nomatch reads

/-- The written text of a pattern stands for it. -/
theorem text_taken (moderate : format.Moderate) (within : bits < 2 * format.signBit)
    (closes : Closes rest) (wanted : FloatWidth) :
    ∃ text, Scan.Takes (Scan.floatOfWidth wanted)
        ((NumberStyle.stored.render (format.read bits)).toList ++ rest) text rest ∧
      format.ofText text = format.quieted bits := by
  unfold quieted
  cases reads : format.read bits with
  | finite negative size =>
    obtain ⟨whole, fraction, written, text⟩ := NumberStyle.render_finite negative size
    rw [text]
    exact ⟨_, Scan.floatOfWidth_taken
      (Scan.float_pointed written.whole_ne written.digits negative closes),
      ofDecimal_written moderate reads within written⟩
  | nan negative =>
    exact ⟨_, Scan.floatOfWidth_taken (Scan.float_word (fun _ _ => nofun) closes), rfl⟩
  | infinite negative =>
    exact ⟨_, Scan.floatOfWidth_taken (Scan.float_word (fun _ _ => nofun) closes),
      ofReading_infinite reads within⟩

end BinaryFormat

/-- A pattern keeps its meaning when it gives way to the standard one. -/
theorem BinaryFormat.read_quieted {format : BinaryFormat}
    (standard : ∀ negative, format.read (format.ofReading (.nan negative)) = .nan negative)
    (bits : Nat) : format.read (format.quieted bits) = format.read bits := by
  unfold quieted
  split
  · rename_i negative reads
    rw [standard, reads]
  · rfl

/-- The value, or the standard one of its sign if it is no number. -/
def Single.quieted (x : Single) : Single :=
  ⟨UInt32.ofNat (BinaryFormat.single.quieted x.bits.toNat)⟩

/-- The value, or the standard one of its sign if it is no number. -/
def Double.quieted (x : Double) : Double :=
  ⟨UInt64.ofNat (BinaryFormat.double.quieted x.bits.toNat)⟩

section Values

variable {rest : List Char}

theorem BinaryFormat.quieted_lt {format : BinaryFormat} {bits : Nat}
    (standard : ∀ negative, format.ofReading (.nan negative) < 2 * format.signBit)
    (within : bits < 2 * format.signBit) : format.quieted bits < 2 * format.signBit := by
  unfold quieted
  split
  · exact standard _
  · exact within

/-- The meaning of a 32-bit number is kept. -/
theorem Single.read_quieted (x : Single) : x.quieted.read = x.read := by
  have within : BinaryFormat.single.quieted x.bits.toNat < 2 ^ 32 :=
    BinaryFormat.quieted_lt (by decide) x.bits.toNat_lt
  have read : BinaryFormat.single.read (BinaryFormat.single.quieted x.bits.toNat) = x.read :=
    BinaryFormat.read_quieted (by decide) x.bits.toNat
  rw [← read, Single.read, Single.quieted, UInt32.toNat_ofNat_of_lt' within]

/-- The meaning of a 64-bit number is kept. -/
theorem Double.read_quieted (x : Double) : x.quieted.read = x.read := by
  have within : BinaryFormat.double.quieted x.bits.toNat < 2 ^ 64 :=
    BinaryFormat.quieted_lt (by decide) x.bits.toNat_lt
  have read : BinaryFormat.double.read (BinaryFormat.double.quieted x.bits.toNat) = x.read :=
    BinaryFormat.read_quieted (by decide) x.bits.toNat
  rw [← read, Double.read, Double.quieted, UInt64.toNat_ofNat_of_lt' within]

/-- The written text of a 32-bit number stands for it. -/
theorem Single.taken (x : Single) (closes : Closes rest) :
    Scan.Takes (FloatText.toSingle <$> Scan.floatOfWidth .single)
      ((NumberStyle.stored.render x.read).toList ++ rest) x.quieted rest := by
  have value (text : FloatText) :
      text.toSingle = ⟨UInt32.ofNat (BinaryFormat.single.ofText text)⟩ := by
    cases text <;> rfl
  obtain ⟨text, taken, same⟩ := BinaryFormat.text_taken BinaryFormat.single_moderate
    (show x.bits.toNat < _ from x.bits.toNat_lt) closes .single
  have read := taken.map FloatText.toSingle
  rw [value, same] at read
  exact read

/-- The written text of a 64-bit number stands for it. -/
theorem Double.taken (x : Double) (closes : Closes rest) :
    Scan.Takes (FloatText.toDouble <$> Scan.floatOfWidth .double)
      ((NumberStyle.stored.render x.read).toList ++ rest) x.quieted rest := by
  have value (text : FloatText) :
      text.toDouble = ⟨UInt64.ofNat (BinaryFormat.double.ofText text)⟩ := by
    cases text <;> rfl
  obtain ⟨text, taken, same⟩ := BinaryFormat.text_taken BinaryFormat.double_moderate
    (show x.bits.toNat < _ from x.bits.toNat_lt) closes .double
  have read := taken.map FloatText.toDouble
  rw [value, same] at read
  exact read

end Values

/-! ### How numbers start -/

section Starts

variable {c : Char}

theorem opens_digit (digit : isDecimalDigit c = true) (rest : List Char) : Opens (c :: rest) := by
  have bounds := isDecimalDigit_iff.mp digit
  refine ⟨c, rest, rfl, ?_, ?_⟩
  · simp [isLayout, layoutRanges, CodeRanges.holdsChar, CodeRanges.holds]
    omega
  · intro sign
    have others : ['/', ')', ']', '\x7d', '#'].any isDecimalDigit = false := by decide
    exact List.any_eq_false.mp others c sign digit

theorem opens_minus (negative : Bool) {text : List Char} (opens : Opens text) :
    Opens ((if negative then ['-'] else []) ++ text) := by
  cases negative with
  | true => exact ⟨'-', text, rfl, by decide, by decide⟩
  | false => exact opens

theorem natDigits_ne_nil (n : Nat) : natDigits n ≠ [] := Nat.toDigits_ne_nil

theorem opens_intText (n : Int) : Opens (intText n).toList := by
  obtain ⟨first, more, chars⟩ := List.exists_cons_of_ne_nil (natDigits_ne_nil n.natAbs)
  have digits : Opens (natDigits n.natAbs) := by
    have digit := isDecimalDigit_natDigits (chars ▸ List.mem_cons_self)
    rw [chars]
    exact opens_digit digit more
  have written : (intText n).toList =
      (if decide (n < 0) then ['-'] else []) ++ natDigits n.natAbs := by
    unfold intText
    split <;> rename_i sign <;> simp [sign]
  rw [written]
  exact opens_minus _ digits

theorem opens_render (r : Reading) : Opens (NumberStyle.stored.render r).toList := by
  cases r with
  | finite negative size =>
    obtain ⟨whole, fraction, written, text⟩ := NumberStyle.render_finite negative size
    obtain ⟨first, more, rfl⟩ := List.exists_cons_of_ne_nil written.whole_ne
    rw [text]
    exact opens_minus _ (opens_digit (written.digits first (by simp)) _)
  | nan negative =>
    cases negative
    · exact ⟨'N', _, rfl, by decide, by decide⟩
    · exact ⟨'-', _, rfl, by decide, by decide⟩
  | infinite negative =>
    cases negative
    · exact ⟨'i', _, rfl, by decide, by decide⟩
    · exact ⟨'-', _, rfl, by decide, by decide⟩
end Starts

end NodeScript
