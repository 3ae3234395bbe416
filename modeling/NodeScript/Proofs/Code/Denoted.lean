import NodeScript.Code.Expr

/-!
What the text of an expression denotes. Of the operands only the binary operations stand in
parentheses. So the operators of a unary operation come to apply to the member that is taken of it or
to the method that is called on it, and two minus signs in a row become one operator.
-/

namespace NodeScript

namespace Expr

/-- The text as an operand. -/
def asOperand (e : Expr) : List Char := e.operandChars e.chars

/-- The unary operators that the text starts with. -/
def signs : Expr → List String
  | .unary token operand => token :: operand.signs
  | .member target _ => target.signs
  | .callOn target _ _ _ => target.signs
  | _ => []

/-- Unary operators applied to an operand. -/
def signed (signs : List String) (operand : Expr) : Expr := signs.foldr .unary operand

/-- Of minus signs in a row, each two are one operator. -/
def joinSigns : List String → List String
  | first :: second :: rest =>
    if first = "-" ∧ second = "-" then "--" :: joinSigns rest
    else first :: joinSigns (second :: rest)
  | signs => signs

mutual

/-- What the text denotes behind the unary operators that it starts with. -/
def core : Expr → Expr
  | .member target name => .member target.core name
  | .call method typeArgs args => .call method typeArgs (denotedAll args)
  | .callOn target method typeArgs args => .callOn target.core method typeArgs (denotedAll args)
  | .binary token lhs rhs =>
    .binary token (signed (joinSigns lhs.signs) lhs.core) (signed (joinSigns rhs.signs) rhs.core)
  | .unary _ operand => operand.core
  | e => e

/-- What the texts of arguments denote. -/
def denotedAll : List Expr → List Expr
  | [] => []
  | e :: rest => signed (joinSigns e.signs) e.core :: denotedAll rest

end

/-- What the text denotes. -/
def denoted (e : Expr) : Expr := signed (joinSigns e.signs) e.core

/-- Whether the expression is a unary operation. -/
def isUnary : Expr → Bool
  | .unary _ _ => true
  | _ => false

/-- Whether the expression is a minus sign in front of an operand. -/
def isNegation : Expr → Bool
  | .unary token _ => token = "-"
  | _ => false

mutual

/-- No member is taken of a unary operation, no method is called on one, and no minus sign stands
directly in front of another. -/
def isClear : Expr → Bool
  | .member target _ => !target.isUnary && target.isClear
  | .call _ _ args => areClear args
  | .callOn target _ _ args => !target.isUnary && target.isClear && areClear args
  | .binary _ lhs rhs => lhs.isClear && rhs.isClear
  | .unary token operand => !(token = "-" && operand.isNegation) && operand.isClear
  | _ => true

/-- All arguments are clear. -/
def areClear : List Expr → Bool
  | [] => true
  | e :: rest => e.isClear && areClear rest

end

section Signs

variable {signs : List String} {e operand : Expr}

theorem joinSigns_eq_nil : joinSigns signs = [] ↔ signs = [] := by
  fun_cases joinSigns signs with
  | case1 | case2 => simp
  | case3 => rfl

theorem signed_cons (sign : String) (signs : List String) (operand : Expr) :
    signed (sign :: signs) operand = .unary sign (signed signs operand) := rfl

/-- An expression that is not a unary operation has no operators in front. -/
theorem eq_of_signed_eq (same : signed signs operand = e) (notUnary : e.isUnary = false) :
    signs = [] ∧ operand = e := by
  cases signs with
  | nil => exact ⟨rfl, same⟩
  | cons sign signs =>
    subst same
    exact nomatch notUnary

/-- The text of operators in a row. -/
def signText (signs : List String) : List Char := signs.flatMap String.toList

theorem signText_joinSigns (signs : List String) : signText (joinSigns signs) = signText signs := by
  fun_induction joinSigns signs with
  | case1 first second rest both ih =>
    obtain ⟨rfl, rfl⟩ := both
    rw [signText, List.flatMap_cons, ← signText, ih]
    rfl
  | case2 first second rest _ ih => rw [signText, List.flatMap_cons, ← signText, ih]; rfl
  | case3 => rfl

theorem asOperand_signed (signs : List String) (operand : Expr) :
    (signed signs operand).asOperand = signText signs ++ operand.asOperand := by
  induction signs with
  | nil => rfl
  | cons sign signs ih =>
    change sign.toList ++ (signed signs operand).asOperand = _
    rw [ih, ← List.append_assoc]
    rfl

end Signs

theorem isBinary_signed (signs : List String) (operand : Expr) :
    (signed signs operand).isBinary = (signs.isEmpty && operand.isBinary) := by
  cases signs with
  | nil => exact (Bool.true_and _).symm
  | cons => rfl

theorem isBinary_denoted (e : Expr) : e.denoted.isBinary = e.isBinary := by
  have joined : ∀ signs : List String, (joinSigns signs).isEmpty = signs.isEmpty := fun signs => by
    rw [Bool.eq_iff_iff, List.isEmpty_iff, List.isEmpty_iff, joinSigns_eq_nil]
  rw [denoted, isBinary_signed, joined]
  cases e with
  | member | callOn => exact Bool.and_false _
  | _ => rfl

theorem denotedAll_eq_map (args : List Expr) : denotedAll args = args.map denoted := by
  induction args with
  | nil => rfl
  | cons e rest ih => rw [denotedAll, ih]; rfl

/-! ### The text stays the same -/

theorem chars_eq_of_asOperand {e e' : Expr} (same : e.asOperand = e'.asOperand)
    (alike : e.isBinary = e'.isBinary) : e.chars = e'.chars := by
  rw [asOperand, asOperand, operandChars, operandChars, alike] at same
  split at same
  · exact List.append_cancel_right (List.cons.inj same).2
  · exact same

theorem asOperand_denoted_of {e : Expr} (split : e.asOperand = signText e.signs ++ e.core.asOperand) :
    e.denoted.asOperand = e.asOperand := by
  rw [denoted, asOperand_signed, signText_joinSigns, ← split]

mutual

/-- The text of an operand: the operators it starts with, and what they apply to. -/
theorem asOperand_eq (e : Expr) : e.asOperand = signText e.signs ++ e.core.asOperand := by
  cases e with
  | literal | ident | this | defaultOf => rfl
  | member target name =>
    change target.asOperand ++ '.' :: name.toList = signText target.signs ++ (target.core.asOperand ++ _)
    rw [asOperand_eq target, List.append_assoc]
  | call method typeArgs args =>
    change _ = method.toList ++ typeArgChars typeArgs ++
      '(' :: commaSeparated (charsAll (denotedAll args)) ++ [')']
    rw [charsAll_denotedAll args]
    rfl
  | callOn target method typeArgs args =>
    change target.asOperand ++ '.' :: method.toList ++ typeArgChars typeArgs ++
        '(' :: commaSeparated (charsAll args) ++ [')'] =
      signText target.signs ++ (target.core.asOperand ++ '.' :: method.toList ++ typeArgChars typeArgs ++
        '(' :: commaSeparated (charsAll (denotedAll args)) ++ [')'])
    rw [charsAll_denotedAll args, asOperand_eq target]
    simp only [List.append_assoc]
  | binary token lhs rhs =>
    change '(' :: (lhs.asOperand ++ ' ' :: token.toList ++ ' ' :: rhs.asOperand) ++ [')'] =
      '(' :: (lhs.denoted.asOperand ++ ' ' :: token.toList ++ ' ' :: rhs.denoted.asOperand) ++ [')']
    rw [asOperand_denoted_of (asOperand_eq lhs), asOperand_denoted_of (asOperand_eq rhs)]
  | unary token operand =>
    change token.toList ++ operand.asOperand = _
    rw [asOperand_eq operand, ← List.append_assoc]
    rfl

theorem charsAll_denotedAll (args : List Expr) : charsAll (denotedAll args) = charsAll args := by
  cases args with
  | nil => rfl
  | cons e rest =>
    have first := asOperand_denoted_of (asOperand_eq e)
    change e.denoted.chars :: charsAll (denotedAll rest) = e.chars :: charsAll rest
    rw [chars_eq_of_asOperand first (isBinary_denoted e), charsAll_denotedAll rest]

end

theorem asOperand_denoted (e : Expr) : e.denoted.asOperand = e.asOperand :=
  asOperand_denoted_of (asOperand_eq e)

/-- What a text denotes has the text itself. -/
theorem chars_denoted (e : Expr) : e.denoted.chars = e.chars :=
  chars_eq_of_asOperand (asOperand_denoted e) (isBinary_denoted e)

/-! ### Clear expressions -/

theorem joinSigns_cons {sign : String} {signs : List String}
    (apart : ¬(sign = "-" ∧ signs.head? = some "-")) :
    joinSigns (sign :: signs) = sign :: joinSigns signs := by
  cases signs with
  | nil => rfl
  | cons second rest =>
    rw [joinSigns, if_neg]
    rintro ⟨rfl, rfl⟩
    exact apart ⟨rfl, rfl⟩

/-- A target that its text denotes, and that is not a unary operation, is one without operators. -/
theorem core_eq_self_iff (target : Expr) :
    target.isUnary = false ∧ target.denoted = target ↔ target.signs = [] ∧ target.core = target := by
  constructor
  · rintro ⟨notUnary, same⟩
    obtain ⟨unsigned, same⟩ := eq_of_signed_eq same notUnary
    exact ⟨joinSigns_eq_nil.mp unsigned, same⟩
  · rintro ⟨unsigned, same⟩
    refine ⟨?_, by rw [denoted, unsigned]; exact same⟩
    cases target with
    | unary => exact nomatch unsigned
    | _ => rfl

theorem isNegation_iff {e : Expr} (same : e.denoted = e) :
    e.isNegation = true ↔ e.signs.head? = some "-" := by
  constructor
  · intro negation
    cases e with
    | unary token operand => exact congrArg some (of_decide_eq_true negation)
    | _ => exact nomatch negation
  · intro first
    -- Behind an operator in front stands a unary operation, and its operator is the first one.
    have signed : e.signs ≠ [] := fun none => by rw [none] at first; exact nomatch first
    cases e with
    | unary token operand => exact decide_eq_true (Option.some.inj first)
    | member | callOn => exact absurd (joinSigns_eq_nil.mp (eq_of_signed_eq same rfl).1) signed
    | _ => exact absurd rfl signed

mutual

/-- The clear expressions are those that their texts denote. -/
theorem isClear_iff (e : Expr) : e.isClear = true ↔ e.denoted = e := by
  cases e with
  | literal | ident | this | defaultOf => exact iff_of_true rfl rfl
  | member target name =>
    rw [isClear, Bool.and_eq_true, Bool.not_eq_true', isClear_iff target, core_eq_self_iff]
    constructor
    · rintro ⟨unsigned, same⟩
      rw [denoted, signs, unsigned, core, same]
      rfl
    · intro same
      obtain ⟨unsigned, same⟩ := eq_of_signed_eq same rfl
      exact ⟨joinSigns_eq_nil.mp unsigned, (Expr.member.inj same).1⟩
  | call method typeArgs args =>
    rw [isClear, areClear_iff args]
    change _ ↔ Expr.call method typeArgs (denotedAll args) = _
    rw [Expr.call.injEq, and_iff_right rfl, and_iff_right rfl]
  | callOn target method typeArgs args =>
    rw [isClear, Bool.and_eq_true, Bool.and_eq_true, Bool.not_eq_true', isClear_iff target,
      areClear_iff args, core_eq_self_iff]
    constructor
    · rintro ⟨⟨unsigned, same⟩, sameArgs⟩
      rw [denoted, signs, unsigned, core, same, sameArgs]
      rfl
    · intro same
      obtain ⟨unsigned, same⟩ := eq_of_signed_eq same rfl
      obtain ⟨sameTarget, -, -, sameArgs⟩ := Expr.callOn.inj same
      exact ⟨⟨joinSigns_eq_nil.mp unsigned, sameTarget⟩, sameArgs⟩
  | binary token lhs rhs =>
    rw [isClear, Bool.and_eq_true, isClear_iff lhs, isClear_iff rhs]
    change _ ↔ Expr.binary token lhs.denoted rhs.denoted = _
    rw [Expr.binary.injEq, and_iff_right rfl]
  | unary token operand =>
    rw [isClear, Bool.and_eq_true, Bool.not_eq_true', isClear_iff operand]
    constructor
    · rintro ⟨apart, same⟩
      have split : ¬(token = "-" ∧ operand.signs.head? = some "-") := by
        rw [← isNegation_iff same]
        simpa using apart
      rw [denoted, signs, joinSigns_cons split, signed_cons, core, ← denoted, same]
    · intro same
      rw [denoted, signs, core] at same
      by_cases both : token = "-" ∧ operand.signs.head? = some "-"
      · obtain ⟨rfl, first⟩ := both
        obtain ⟨rest, all⟩ := List.head?_eq_some_iff.mp first
        rw [all] at same
        exact nomatch (Expr.unary.inj same).1
      · rw [joinSigns_cons both, signed_cons] at same
        have operandSame : operand.denoted = operand := (Expr.unary.inj same).2
        refine ⟨?_, operandSame⟩
        rw [← isNegation_iff operandSame] at both
        simpa using both

theorem areClear_iff (args : List Expr) : areClear args = true ↔ denotedAll args = args := by
  cases args with
  | nil => exact iff_of_true rfl rfl
  | cons e rest =>
    rw [areClear, Bool.and_eq_true, isClear_iff e, areClear_iff rest, denotedAll, List.cons.injEq]
    rfl

end

/-- A negation of a negation is not clear: its text denotes a decrement. -/
example : (unary "-" (.unary "-" (.ident "a"))).denoted = unary "--" (.ident "a") := rfl

end Expr

end NodeScript
