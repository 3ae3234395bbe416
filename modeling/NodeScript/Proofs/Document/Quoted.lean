import NodeScript.Document.Quoted
import NodeScript.Proofs.Document.Steps

/-!
Quoted text and identities, read back. Every character is written as itself or by an escape that
stands for it, and the first quote that no escape belongs to ends the text.
-/

namespace NodeScript

/-! ### Hexadecimal digits and identities -/

section Hexadecimal

theorem hexValue?_digitChar {n : Nat} (small : n < 16) : hexValue? (Nat.digitChar n) = some n := by
  interval_cases n <;> rfl

/-- What hexadecimal digits stand for behind a value. -/
def hexNatFrom? (value : Nat) (digits : List Char) : Option Nat :=
  digits.foldlM (fun n c => (hexValue? c).map (16 * n + ·)) value

theorem hexNatFrom?_cons {value result : Nat} {c : Char} {digits : List Char}
    (read : hexNatFrom? value (c :: digits) = some result) :
    ∃ digit, hexValue? c = some digit ∧ hexNatFrom? (16 * value + digit) digits = some result := by
  unfold hexNatFrom? at read
  rw [List.foldlM_cons] at read
  cases found : hexValue? c with
  | none =>
    rw [found] at read
    exact nomatch read
  | some digit =>
    rw [found] at read
    exact ⟨digit, rfl, read⟩

theorem hexNatFrom?_toDigits (n : Nat) : hexNatFrom? 0 (Nat.toDigits 16 n) = some n := by
  induction n using Nat.strong_induction_on with
  | _ n ih =>
    rw [Nat.toDigits_eq_if (by decide)]
    split
    · rename_i small
      simp [hexNatFrom?, hexValue?_digitChar small]
    · rename_i large
      have earlier := ih (n / 16) (by omega)
      unfold hexNatFrom? at earlier ⊢
      rw [List.foldlM_append, earlier]
      simp [hexValue?_digitChar (Nat.mod_lt n (by decide : 16 > 0))]
      omega

theorem hexNat?_paddedHex (width n : Nat) : hexNat? (paddedHex width n) = some n := by
  have zeros (k : Nat) : hexNatFrom? 0 (List.replicate k '0') = some 0 := by
    induction k with
    | zero => rfl
    | succ k ih => exact ih
  have digits := hexNatFrom?_toDigits n
  unfold hexNatFrom? at zeros digits
  unfold hexNat? paddedHex
  dsimp only
  rw [List.foldlM_append, zeros]
  exact digits

theorem length_paddedHex {width n : Nat} (positive : 0 < width) (small : n < 16 ^ width) :
    (paddedHex width n).length = width := by
  have few : (Nat.toDigits 16 n).length ≤ width :=
    (Nat.length_toDigits_le_iff (by decide) positive).mpr small
  unfold paddedHex
  dsimp only
  rw [List.length_append, List.length_replicate]
  omega

/-- Groups of the right sizes with hyphens between them are read as their digits. -/
theorem Uuid.ofHyphenated?_groups {a b c d e : List Char} (first : a.length = 8)
    (second : b.length = 4) (third : c.length = 4) (fourth : d.length = 4)
    (fifth : e.length = 12) :
    Uuid.ofHyphenated? (a ++ '-' :: b ++ '-' :: c ++ '-' :: d ++ '-' :: e) =
      Uuid.ofDigits? (a ++ b ++ c ++ d ++ e) := by
  unfold Uuid.ofHyphenated?
  simp [List.drop_append, List.drop_eq_nil_of_le, first, second, third, fourth,
    fifth]

/-- The text of an identity stands for it. -/
theorem Uuid.ofText?_text (u : Uuid) : Uuid.ofText? u.text = some u := by
  have small : u.bits.toNat < 16 ^ 32 := u.bits.isLt
  have whole := length_paddedHex (by decide) small
  have read : Uuid.ofDigits? (paddedHex 32 u.bits.toNat) = some u := by
    unfold Uuid.ofDigits?
    rw [if_pos whole, hexNat?_paddedHex, Option.map_some, BitVec.ofNat_toNat, BitVec.setWidth_eq]
  have groups : Uuid.ofHyphenated? u.text.toList = some u := by
    unfold Uuid.text
    dsimp only
    rw [String.toList_ofList, Uuid.ofHyphenated?_groups]
    · rw [← read]
      congr 1
      simp only [← List.take_add, Nat.reduceAdd, List.take_append_drop]
    all_goals simp [whole]
  have long : u.text.toList.length = 36 := by
    simp [Uuid.text, whole]
  unfold Uuid.ofText?
  dsimp only
  rw [long, if_neg (by decide), if_pos rfl, groups]
end Hexadecimal

/-! ### Escapes -/

namespace Scan

section Escapes

variable {place : EscapePlace} {rest : List Char} {c : Char}

theorem hexValue_taken {digit : Nat} (value : hexValue? c = some digit) (rest : List Char) :
    Takes (hexValue c) rest digit rest := by
  unfold hexValue
  rw [value]
  exact .pure _ _

theorem numberDigits_taken {digits : List Char} {more count value result : Nat}
    (read : hexNatFrom? value digits = some result) (few : digits.length ≤ more) :
    Takes (numberDigits more count value) (digits ++ '\x7d' :: rest)
      (count + digits.length, result) ('\x7d' :: rest) := by
  induction digits generalizing more count value with
  | nil =>
    obtain rfl := Option.some.inj read
    cases more with
    | zero => exact .pure _ _
    | succ more =>
      exact (peek_cons '\x7d' rest).bind (.pure _ _)
  | cons c digits ih =>
    cases more with
    | zero => exact absurd few (by simp)
    | succ more =>
      obtain ⟨digit, value, later⟩ := hexNatFrom?_cons read
      have other : c ≠ '\x7d' := by
        rintro rfl
        exact nomatch value
      unfold numberDigits
      refine (peek_cons c _).bind ?_
      rw [if_neg other]
      refine (next_cons c _).bind ((hexValue_taken value _).bind ?_)
      rw [List.length_cons, Nat.add_comm digits.length 1, ← Nat.add_assoc]
      exact ih later (by simpa using few)

theorem numberedChar_taken (c : Char) (rest : List Char) :
    Takes numberedChar ('\x7b' :: (hexDigits c.toNat ++ '\x7d' :: rest)) c rest := by
  have valid : c.toNat.isValidChar := c.valid
  have small : c.toNat < 16 ^ 6 := by
    unfold Nat.isValidChar at valid
    omega
  have few : (hexDigits c.toNat).length ≤ 6 :=
    (Nat.length_toDigits_le_iff (by decide) (by decide)).mpr small
  have some : (hexDigits c.toNat).length ≠ 0 := by
    simp [hexDigits, Nat.toDigits_ne_nil]
  unfold numberedChar
  refine (expect_found '\x7b' _ _).bind
    ((numberDigits_taken (hexNatFrom?_toDigits c.toNat) few).bind ?_)
  dsimp only
  rw [if_neg (by rwa [Nat.zero_add])]
  refine (expect_found '\x7d' _ _).bind ?_
  rw [if_pos valid, Char.ofNat_toNat]
  exact .pure _ _

/-- An escape of one letter. -/
theorem escape_letter {letter : Char}
    (meant : (letterEscape? letter).map (fun byte => Char.ofNat byte.toNat) = some c)
    (rest : List Char) :
    ∃ escaped, Takes (escape .text) ([letter] ++ rest) escaped rest ∧ escaped.read = c := by
  obtain ⟨byte, letters, meant⟩ := Option.map_eq_some_iff.mp meant
  refine ⟨.byte byte, ?_, meant⟩
  unfold escape
  refine (next_cons letter rest).bind ?_
  rw [letters]
  exact .pure _ _

theorem escape_number (c : Char) (rest : List Char) :
    Takes (escape .text) ('u' :: '\x7b' :: (hexDigits c.toNat ++ '\x7d' :: rest)) (.char c)
      rest := by
  unfold escape
  refine (next_cons 'u' _).bind ?_
  exact (numberedChar_taken c rest).bind (.pure _ _)

/-- A character is written as itself or by an escape that stands for it. -/
theorem escapeVisible_cases (c : Char) :
    escapeVisible true c = [c] ∧ c ≠ '"' ∧ c ≠ '\\' ∨
      ∃ code, escapeVisible true c = '\\' :: code ∧
        ∀ rest, ∃ escaped, Takes (escape .text) (code ++ rest) escaped rest ∧ escaped.read = c := by
  unfold escapeVisible
  split
  · subst c
    exact .inr ⟨['0'], rfl, escape_letter rfl⟩
  split
  · subst c
    exact .inr ⟨['t'], rfl, escape_letter rfl⟩
  split
  · subst c
    exact .inr ⟨['r'], rfl, escape_letter rfl⟩
  split
  · subst c
    exact .inr ⟨['n'], rfl, escape_letter rfl⟩
  split
  · subst c
    exact .inr ⟨['"'], rfl, escape_letter rfl⟩
  split
  · subst c
    exact .inr ⟨['\\'], rfl, escape_letter rfl⟩
  split
  · rename_i apostrophe
    obtain rfl : c = '\'' := by simpa using apostrophe
    exact .inr ⟨['\''], rfl, escape_letter rfl⟩
  split
  · refine .inr ⟨_, rfl, fun rest => ⟨.char c, ?_, rfl⟩⟩
    simpa using escape_number c rest
  · rename_i quote backslash _ _
    exact .inl ⟨rfl, quote, backslash⟩

end Escapes

/-! ### Quoted text -/

section QuotedText

variable {place : EscapePlace} {rest tail behind before plain : List Char} {b : Char}

/-- Characters without quotes and backslashes. -/
def NoSigns (plain : List Char) : Prop := ∀ c ∈ plain, (c != '"' && c != '\\') = true

theorem noSigns_nil : NoSigns [] := fun _ absurdity => nomatch absurdity

/-- Up to a quote or backslash characters are read as themselves. -/
theorem quotedRest_round {sign : Char} (noSigns : NoSigns plain) (signs : sign ∈ ['"', '\\'])
    (there : (plain ++ sign :: tail).contains '"' = true) {read : List Char}
    (next : Takes (if sign = '"' then pure (plain.reverse ++ before).reverse else do
        let escaped ← escape place
        quotedRest place behind (escaped.read :: (plain.reverse ++ before))) tail read rest) :
    Takes (quotedRest place (b :: behind) before) (plain ++ sign :: tail) read rest := by
  have stops : ∀ c ∈ (sign :: tail).head?, (c != '"' && c != '\\') = false := by
    rintro _ ⟨⟩
    simp only [List.mem_cons, List.not_mem_nil, or_false] at signs
    rcases signs with rfl | rfl <;> decide
  have taken := (span_append (p := fun c => c != '"' && c != '\\') noSigns stops).1
  unfold quotedRest
  refine (Takes.get _).bind ?_
  rw [there, taken]
  dsimp only
  rw [List.drop_left]
  exact (Takes.set _ _).bind ((next_cons sign tail).bind next)

theorem quotedRest_ends (noSigns : NoSigns plain) :
    Takes (quotedRest place (b :: behind) before) (plain ++ '"' :: rest)
      (before.reverse ++ plain) rest := by
  refine quotedRest_round noSigns (by simp) (by simp) ?_
  rw [if_pos rfl, List.reverse_append, List.reverse_reverse]
  exact .pure _ _

theorem quotedRest_escape (noSigns : NoSigns plain) {escaped : Escaped}
    {code read : List Char} (escapes : Takes (escape place) (code ++ tail) escaped tail)
    (there : '"' ∈ tail)
    (next : Takes (quotedRest place behind (escaped.read :: (plain.reverse ++ before))) tail
      read rest) :
    Takes (quotedRest place (b :: behind) before) (plain ++ '\\' :: (code ++ tail)) read rest := by
  refine quotedRest_round noSigns (by simp) (by simp [there]) ?_
  rw [if_neg (by decide)]
  exact escapes.bind next

/-- Written text is read up to its closing quote, behind characters that stand for themselves. -/
theorem quotedRest_taken (chars : List Char) (noSigns : NoSigns plain)
    (enough : chars.length ≤ behind.length) :
    Takes (quotedRest .text (b :: behind) before)
      (plain ++ (chars.flatMap (escapeVisible true) ++ '"' :: rest))
      (before.reverse ++ plain ++ chars) rest := by
  induction chars generalizing plain before b behind with
  | nil =>
    rw [List.append_nil]
    exact quotedRest_ends noSigns
  | cons c chars ih =>
    rw [List.length_cons] at enough
    rw [List.flatMap_cons, List.append_assoc]
    rcases escapeVisible_cases c with ⟨own, quote, backslash⟩ | ⟨code, escaped, reads⟩
    · have longer : NoSigns (plain ++ [c]) :=
        List.forall_mem_append.mpr ⟨noSigns, by simp [quote, backslash]⟩
      have later : Takes (quotedRest .text (b :: behind) before)
          (plain ++ [c] ++ (chars.flatMap (escapeVisible true) ++ '"' :: rest))
          (before.reverse ++ (plain ++ [c]) ++ chars) rest := ih longer (by omega)
      rw [own]
      simpa using later
    · cases behind with
      | nil => exact absurd enough (by simp)
      | cons b' behind =>
        obtain ⟨stands, escapes, rfl⟩ := reads (chars.flatMap (escapeVisible true) ++ '"' :: rest)
        have later : Takes (quotedRest .text (b' :: behind)
              (stands.read :: (plain.reverse ++ before)))
            ([] ++ (chars.flatMap (escapeVisible true) ++ '"' :: rest))
            ((stands.read :: (plain.reverse ++ before)).reverse ++ [] ++ chars) rest :=
          ih noSigns_nil (by simpa using enough)
        rw [escaped, List.cons_append]
        refine quotedRest_escape noSigns escapes (by simp) ?_
        simpa using later

theorem length_le_escaped (chars : List Char) :
    chars.length ≤ (chars.flatMap (escapeVisible true)).length := by
  induction chars with
  | nil => exact Nat.zero_le _
  | cons c chars ih =>
    have one : 1 ≤ (escapeVisible true c).length := by
      rcases escapeVisible_cases c with ⟨own, -⟩ | ⟨code, escaped, -⟩
      · simp [own]
      · simp [escaped]
    rw [List.flatMap_cons, List.length_append, List.length_cons]
    omega

/-- Quoted text stands for the text that it was written for. -/
theorem quotedText_taken (value : String) (rest : List Char) :
    Takes quotedText ((quoteStored value).toList ++ rest) value rest := by
  have written : (quoteStored value).toList ++ rest =
      '"' :: (value.toList.flatMap (escapeVisible true) ++ '"' :: rest) := by
    simp [quoteStored]
  have enough : value.toList.length ≤
      (value.toList.flatMap (escapeVisible true) ++ '"' :: rest).length := by
    have long := length_le_escaped value.toList
    rw [List.length_append]
    omega
  rw [written]
  generalize inside : value.toList.flatMap (escapeVisible true) ++ '"' :: rest = text at enough ⊢
  have read : Takes (quotedRest .text ('"' :: text) []) ([] ++ text)
      ([].reverse ++ [] ++ value.toList) rest :=
    inside ▸ quotedRest_taken value.toList noSigns_nil (inside ▸ enough)
  rw [List.reverse_nil, List.nil_append, List.nil_append, List.nil_append] at read
  unfold quotedText
  refine (take?_found ['"'] _).bind ?_
  rw [if_pos rfl]
  refine Takes.bind read ?_
  rw [String.ofList_toList]
  exact .pure _ _

end QuotedText

end Scan

end NodeScript
