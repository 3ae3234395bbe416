import Mathlib.Data.List.TakeWhile
import NodeScript.Code.Expr
import NodeScript.Proofs.Code.Denoted
import NodeScript.Proofs.Text.Boundary
import NodeScript.Typing.Operator

/-!
Expressions read back from their texts. The reader has the precedence of the language of generated
code: members and calls bind tighter than unary operators, these tighter than binary ones, and two
minus signs in a row are one operator. Blanks surround binary operators, and a bracket `<` directly
behind a name opens type arguments.
-/

namespace NodeScript

/-- The longest word that a text starts with. -/
def frontWord (text : List Char) : String := String.ofList (text.takeWhile isIdentifierChar)

/-- What is behind the longest word that a text starts with. -/
def behindWord (text : List Char) : List Char := text.dropWhile isIdentifierChar

/-- A name or a literal that is a single word and no keyword. -/
structure IsWord (word : String) : Prop where
  chars : ∀ c ∈ word.toList, isIdentifierChar c = true
  nonempty : word ≠ ""
  notThis : word ≠ "this"
  notDefault : word ≠ "default"

instance (word : String) : Decidable (IsWord word) :=
  decidable_of_iff
    (word.toList.all isIdentifierChar = true ∧ word ≠ "" ∧ word ≠ "this" ∧ word ≠ "default")
    ⟨fun ⟨chars, nonempty, notThis, notDefault⟩ =>
        ⟨List.all_eq_true.mp chars, nonempty, notThis, notDefault⟩,
      fun ⟨chars, nonempty, notThis, notDefault⟩ =>
        ⟨List.all_eq_true.mpr chars, nonempty, notThis, notDefault⟩⟩

theorem IsWord.toList_ne_nil {word : String} (isWord : IsWord word) : word.toList ≠ [] :=
  fun empty => isWord.nonempty (String.toList_eq_nil_iff.mp empty)

/-- The expressions whose names and literals are words, with the operators of the language. A word is
a literal or the name of something, but not both. -/
inductive Expr.Worded (isLiteral : String → Bool) : Expr → Prop
  | literal {text} : IsWord text → isLiteral text = true → Worded isLiteral (.literal text)
  | ident {name} : IsWord name → isLiteral name = false → Worded isLiteral (.ident name)
  | this : Worded isLiteral .this
  | member {target name} : Worded isLiteral target → IsWord name →
      Worded isLiteral (.member target name)
  | call {method typeArgs args} : IsWord method → (∀ arg ∈ typeArgs, IsWord arg) →
      (∀ arg ∈ args, Worded isLiteral arg) → Worded isLiteral (.call method typeArgs args)
  | callOn {target method typeArgs args} : Worded isLiteral target → IsWord method →
      (∀ arg ∈ typeArgs, IsWord arg) → (∀ arg ∈ args, Worded isLiteral arg) →
      Worded isLiteral (.callOn target method typeArgs args)
  | binary {lhs rhs} (op : BinaryOperator) : Worded isLiteral lhs → Worded isLiteral rhs →
      Worded isLiteral (.binary op.token lhs rhs)
  | unary {operand} (op : UnaryOperator) : Worded isLiteral operand →
      Worded isLiteral (.unary op.token operand)
  | defaultOf {type} : IsWord type → Worded isLiteral (.defaultOf type)

/-! ### Chains of binary operators -/

/-- How tight an operator binds; those of the level 0 bind the most. -/
def BinaryOperator.level : BinaryOperator → Nat
  | multiply | divide | modulo => 0
  | add | subtract => 1
  | less | lessOrEqual | greater | greaterOrEqual => 2
  | equals | notEquals => 3
  | and => 4
  | or => 5

/-- The operator of a token. -/
def BinaryOperator.ofToken? (token : String) : Option BinaryOperator := all.find? (·.token = token)

namespace Expr

/-- Applies the operators of one level in a chain of operands, from the left. -/
def applyLevel (level : Nat) (first : Expr) :
    List (BinaryOperator × Expr) → Expr × List (BinaryOperator × Expr)
  | [] => (first, [])
  | (op, next) :: rest =>
    if op.level = level then applyLevel level (.binary op.token first next) rest
    else
      let (next, rest) := applyLevel level next rest
      (first, (op, next) :: rest)

/-- The operation that a chain of operands is, level by level. -/
def ofChain (first : Expr) (rest : List (BinaryOperator × Expr)) : Expr :=
  ((List.range 6).foldl (fun chain level => applyLevel level chain.1 chain.2) (first, rest)).1

theorem ofChain_nil (e : Expr) : ofChain e [] = e := rfl

theorem ofChain_single (lhs rhs : Expr) (op : BinaryOperator) :
    ofChain lhs [(op, rhs)] = .binary op.token lhs rhs := by
  cases op <;> rfl

/-! ### The reader -/

/-- What is left is shorter than the text. -/
def advancing {α : Type} (text : List Char) (reading : Option (α × List Char)) :
    Option (α × { rest : List Char // rest.length < text.length }) :=
  reading.bind fun (value, rest) =>
    if shorter : rest.length < text.length then some (value, ⟨rest, shorter⟩) else none

/-- Reads unary operators. Two minus signs in a row are one operator. -/
def readSigns : List Char → List String × List Char
  | '-' :: '-' :: rest => ("--" :: (readSigns rest).1, (readSigns rest).2)
  | '-' :: rest => ("-" :: (readSigns rest).1, (readSigns rest).2)
  | '!' :: rest => ("!" :: (readSigns rest).1, (readSigns rest).2)
  | rest => ([], rest)

/-- Reads a binary operator and the blank behind it. -/
def readOperator (text : List Char) : Option (BinaryOperator × List Char) :=
  (BinaryOperator.ofToken? (String.ofList (text.takeWhile (· ≠ ' ')))).map
    (·, (text.dropWhile (· ≠ ' ')).tail)

theorem length_behindWord (text : List Char) : (behindWord text).length ≤ text.length :=
  List.length_dropWhile_le _ _

theorem length_readSigns (text : List Char) : (readSigns text).2.length ≤ text.length := by
  fun_induction readSigns text with
  | case1 rest ih => simp only [List.length_cons]; omega
  | case2 rest _ ih => simp only [List.length_cons]; omega
  | case3 rest ih => simp only [List.length_cons]; omega
  | case4 => exact le_rfl

/-- Reads words with commas between them up to a closing bracket. -/
def readTypeNames (text : List Char) : Option (List String × List Char) :=
  match advancing text (some (frontWord text, behindWord text)) with
  | some (name, ⟨'>' :: rest, _⟩) => some ([name], rest)
  | some (name, ⟨',' :: ' ' :: inner, _⟩) =>
    (readTypeNames inner).map fun (others, rest) => (name :: others, rest)
  | _ => none
termination_by text.length
decreasing_by
  rename_i shorter
  simp only [List.length_cons] at shorter
  omega

/-- Reads what opens the arguments of a call: a parenthesis, possibly behind type arguments. -/
def readOpening : List Char → Option (List String × List Char)
  | '(' :: inner => some ([], inner)
  | '<' :: inner =>
    match readTypeNames inner with
    | some (typeArgs, '(' :: inner) => some (typeArgs, inner)
    | _ => none
  | _ => none

/-- Reads a word in parentheses. -/
def readInParentheses : List Char → Option (String × List Char)
  | '(' :: inner =>
    match behindWord inner with
    | ')' :: rest => some (frontWord inner, rest)
    | _ => none
  | _ => none

section Reader

variable (isLiteral : String → Bool)

mutual

/-- Reads an expression: operands with binary operators between them. -/
def readExpr (text : List Char) : Option (Expr × List Char) :=
  match advancing text (readOperand text) with
  | some (first, ⟨rest, _⟩) =>
    (readChain rest).map fun (others, rest) => (.ofChain first others, rest)
  | none => none
termination_by 9 * text.length + 6

/-- Reads the binary operators that follow, each with its right operand. -/
def readChain (text : List Char) : Option (List (BinaryOperator × Expr) × List Char) :=
  match text with
  | ' ' :: inner =>
    match advancing inner (readOperator inner) with
    | some (op, ⟨inner, _⟩) =>
      match advancing inner (readOperand inner) with
      | some (operand, ⟨rest, _⟩) =>
        (readChain rest).map fun (others, rest) => ((op, operand) :: others, rest)
      | none => none
    | none => none
  | rest => some ([], rest)
termination_by 9 * text.length

/-- Reads an operand: unary operators and what they apply to. -/
def readOperand (text : List Char) : Option (Expr × List Char) :=
  (readCore (readSigns text).2).map fun (operand, rest) =>
    (.signed (readSigns text).1 operand, rest)
termination_by 9 * text.length + 5
decreasing_by
  have shorter := length_readSigns text
  omega

/-- Reads an operand without unary operators. -/
def readCore (text : List Char) : Option (Expr × List Char) :=
  match text with
  | '(' :: inner =>
    match advancing inner (readExpr inner) with
    | some (e, ⟨')' :: rest, _⟩) => readBehind e rest
    | _ => none
  | text => readWord (frontWord text) (behindWord text)
termination_by 9 * text.length + 4
decreasing_by
  · simp only [List.length_cons]; omega
  · rename_i shorter
    simp only [List.length_cons] at shorter ⊢
    omega
  · have behind := length_behindWord text
    omega

/-- Goes on behind a word that an operand starts with. -/
def readWord (word : String) (text : List Char) : Option (Expr × List Char) :=
  if word = "" then none
  else if word = "this" then readBehind .this text
  else if word = "default" then
    match advancing text (readInParentheses text) with
    | some (type, ⟨rest, _⟩) => readBehind (.defaultOf type) rest
    | none => none
  else readNamed (if isLiteral word then .literal word else .ident word) (.call word) text
termination_by 9 * text.length + 3

/-- Goes on behind a name: a call, if arguments follow. -/
def readNamed (plain : Expr) (applied : List String → List Expr → Expr) (text : List Char) :
    Option (Expr × List Char) :=
  match advancing text (readOpening text) with
  | some (typeArgs, ⟨inner, _⟩) =>
    match advancing inner (readArguments inner) with
    | some (args, ⟨rest, _⟩) => readBehind (applied typeArgs args) rest
    | none => none
  | none => readBehind plain text
termination_by 9 * text.length + 2
decreasing_by all_goals omega

/-- Goes on behind an operand: members and methods of it. -/
def readBehind (e : Expr) (text : List Char) : Option (Expr × List Char) :=
  match text with
  | '.' :: inner =>
    if frontWord inner = "" then none
    else readNamed (.member e (frontWord inner)) (.callOn e (frontWord inner)) (behindWord inner)
  | rest => some (e, rest)
termination_by 9 * text.length + 1
decreasing_by
  have behind := length_behindWord inner
  simp only [List.length_cons]
  omega

/-- Reads arguments up to the closing parenthesis. -/
def readArguments (text : List Char) : Option (List Expr × List Char) :=
  match text with
  | ')' :: rest => some ([], rest)
  | text => readArgumentList text
termination_by 9 * text.length + 8

/-- Reads one or more arguments up to the closing parenthesis. -/
def readArgumentList (text : List Char) : Option (List Expr × List Char) :=
  match advancing text (readExpr text) with
  | some (e, ⟨')' :: rest, _⟩) => some ([e], rest)
  | some (e, ⟨',' :: ' ' :: rest, _⟩) =>
    (readArgumentList rest).map fun (others, rest) => (e :: others, rest)
  | _ => none
termination_by 9 * text.length + 7
decreasing_by
  · omega
  · rename_i shorter
    simp only [List.length_cons] at shorter
    omega

end

/-- The expression of a text. -/
def read? (text : String) : Option Expr :=
  match readExpr isLiteral text.toList with
  | some (e, []) => some e
  | _ => none

/-! ### Boundaries -/

/-- The characters of an expression that are not in words. -/
def punctuation : List Char := ['.', ' ', ',', ')', '(', '<', '>']

theorem advancing_some {α : Type} {text rest : List Char} (value : α)
    (shorter : rest.length < text.length) :
    advancing text (some (value, rest)) = some (value, ⟨rest, shorter⟩) :=
  dif_pos shorter

theorem length_lt_append {front : List Char} (filled : front ≠ []) (rest : List Char) :
    rest.length < (front ++ rest).length := by
  have long := List.length_pos_iff.mpr filled
  rw [List.length_append]
  omega

/-- A reader that has read a text which is not empty has come further. -/
theorem advancing_append {α : Type} {front : List Char} (filled : front ≠ []) (value : α)
    (rest : List Char) : advancing (front ++ rest) (some (value, rest)) =
      some (value, ⟨rest, length_lt_append filled rest⟩) :=
  advancing_some value _

theorem advancing_nil {α : Type} (reading : Option (α × List Char)) :
    advancing [] reading = none := by
  cases reading with
  | none => rfl
  | some found => simp [advancing]

theorem front_append {word : String} {rest : List Char}
    (chars : ∀ c ∈ word.toList, isIdentifierChar c = true) (goesOn : GoesOn punctuation rest) :
    frontWord (word.toList ++ rest) = word ∧ behindWord (word.toList ++ rest) = rest := by
  obtain ⟨taken, left⟩ := span_append chars (goesOn.stops (by decide +kernel))
  rw [frontWord, behindWord, taken, left, String.ofList_toList]
  exact ⟨rfl, rfl⟩

theorem readBehind_of_goesOn {text : List Char} (e : Expr) (goesOn : GoesOn [' ', ',', ')'] text) :
    readBehind isLiteral e text = some (e, text) := by
  rw [readBehind.eq_def]
  split
  · exact absurd (goesOn '.' rfl) (by decide)
  · rfl

theorem readChain_of_goesOn {text : List Char} (goesOn : GoesOn [',', ')'] text) :
    readChain isLiteral text = some ([], text) := by
  rw [readChain.eq_def]
  split
  · exact absurd (goesOn ' ' rfl) (by decide)
  · rfl

theorem readNamed_of_goesOn {text : List Char} (plain : Expr)
    (applied : List String → List Expr → Expr) (goesOn : GoesOn ['.', ' ', ',', ')'] text) :
    readNamed isLiteral plain applied text = readBehind isLiteral plain text := by
  have closed : readOpening text = none := by
    rw [readOpening.eq_def]
    split
    · exact absurd (goesOn '(' rfl) (by decide)
    · exact absurd (goesOn '<' rfl) (by decide)
    · rfl
  rw [readNamed, closed]
  rfl

theorem readBehind_member {name : String} {rest : List Char} (word : IsWord name) (e : Expr)
    (goesOn : GoesOn punctuation rest) :
    readBehind isLiteral e ('.' :: (name.toList ++ rest)) =
      readNamed isLiteral (.member e name) (.callOn e name) rest := by
  obtain ⟨front, behind⟩ := front_append word.chars goesOn
  rw [readBehind, front, behind, if_neg word.nonempty]

theorem readCore_front {word : String} {rest : List Char}
    (chars : word.toList.all isIdentifierChar = true) (nonempty : word.toList ≠ [])
    (goesOn : GoesOn punctuation rest) :
    readCore isLiteral (word.toList ++ rest) = readWord isLiteral word rest := by
  have identifierChars := List.all_eq_true.mp chars
  obtain ⟨front, behind⟩ := front_append identifierChars goesOn
  rw [readCore.eq_def]
  split
  · rename_i inner starts
    obtain ⟨c, more, split⟩ := List.exists_cons_of_ne_nil nonempty
    rw [split] at starts
    obtain rfl : c = '(' := (List.cons.inj starts).1
    have identifierChar := identifierChars '(' (split ▸ List.mem_cons_self)
    exact absurd identifierChar (by decide +kernel)
  · rw [front, behind]

theorem readCore_word {name : String} {rest : List Char} (word : IsWord name)
    (goesOn : GoesOn punctuation rest) :
    readCore isLiteral (name.toList ++ rest) =
      readNamed isLiteral (if isLiteral name then .literal name else .ident name) (.call name) rest := by
  rw [readCore_front isLiteral (List.all_eq_true.mpr word.chars) word.toList_ne_nil goesOn, readWord,
    if_neg word.nonempty, if_neg word.notThis, if_neg word.notDefault]

theorem readCore_this {rest : List Char} (goesOn : GoesOn punctuation rest) :
    readCore isLiteral ("this".toList ++ rest) = readBehind isLiteral .this rest := by
  rw [readCore_front isLiteral (by decide +kernel) (by decide) goesOn, readWord,
    if_neg (by decide), if_pos rfl]

theorem readCore_default {type : String} {rest : List Char} (word : IsWord type) :
    readCore isLiteral ("default".toList ++ ('(' :: (type.toList ++ ')' :: rest))) =
      readBehind isLiteral (.defaultOf type) rest := by
  have closing : GoesOn punctuation (')' :: rest) := GoesOn.cons (by decide) rest
  obtain ⟨front, behind⟩ := front_append word.chars closing
  have inside : readInParentheses ('(' :: (type.toList ++ ')' :: rest)) = some (type, rest) := by
    simp only [readInParentheses, behind, front]
  rw [readCore_front isLiteral (by decide +kernel) (by decide) (GoesOn.cons (by decide) _), readWord,
    if_neg (by decide), if_neg (by decide), if_pos rfl, inside,
    advancing_some _ (by simp only [List.length_cons, List.length_append]; omega)]

/-! ### Arguments -/

theorem commaSeparated_cons_cons (first second : List Char) (rest : List (List Char)) :
    commaSeparated (first :: second :: rest) =
      first ++ ',' :: ' ' :: commaSeparated (second :: rest) := by
  simp [commaSeparated]

theorem commaSeparated_singleton (part : List Char) : commaSeparated [part] = part := by
  simp [commaSeparated]

theorem advancing_word {word : String} {rest : List Char} (isWord : IsWord word)
    (goesOn : GoesOn punctuation rest) :
    advancing (word.toList ++ rest)
        (some (frontWord (word.toList ++ rest), behindWord (word.toList ++ rest))) =
      some (word, ⟨rest, length_lt_append isWord.toList_ne_nil rest⟩) := by
  obtain ⟨front, behind⟩ := front_append isWord.chars goesOn
  rw [front, behind, advancing_append isWord.toList_ne_nil]

theorem readTypeNames_commaSeparated {names : List String} (words : ∀ name ∈ names, IsWord name)
    (nonempty : names ≠ []) (rest : List Char) :
    readTypeNames (commaSeparated (names.map String.toList) ++ '>' :: rest) = some (names, rest) := by
  induction names with
  | nil => exact absurd rfl nonempty
  | cons name others ih =>
    have word := words name List.mem_cons_self
    cases others with
    | nil =>
      rw [List.map_singleton, commaSeparated_singleton, readTypeNames.eq_def,
        advancing_word word (GoesOn.cons (by decide) rest)]
      rfl
    | cons second others =>
      have inner := ih (fun name member => words name (List.mem_cons_of_mem _ member)) nofun
      rw [List.map_cons] at inner
      rw [List.map_cons, List.map_cons, commaSeparated_cons_cons, List.append_assoc,
        List.cons_append, readTypeNames.eq_def, advancing_word word (GoesOn.cons (by decide) _)]
      simp only [List.cons_append, inner, Option.map_some]

theorem readOpening_typeArgChars {typeArgs : List String} (words : ∀ arg ∈ typeArgs, IsWord arg)
    (rest : List Char) : readOpening (typeArgChars typeArgs ++ '(' :: rest) = some (typeArgs, rest) := by
  cases typeArgs with
  | nil => rfl
  | cons arg others =>
    have names := readTypeNames_commaSeparated words nofun ('(' :: rest)
    change readOpening ('<' :: (commaSeparated _ ++ ['>'] ++ '(' :: rest)) = _
    rw [List.append_assoc, List.singleton_append, readOpening, names]
    rfl

/-- An expression is read off the front of a text that goes on behind it as in arguments. -/
def ReadsBack (e : Expr) : Prop :=
  ∀ rest, GoesOn [',', ')'] rest → readExpr isLiteral (e.chars ++ rest) = some (e, rest)

theorem ReadsBack.chars_ne_nil {e : Expr} (readable : ReadsBack isLiteral e) : e.chars ≠ [] := by
  intro empty
  have read := readable [] (GoesOn.nil _)
  rw [empty, List.append_nil, readExpr, advancing_nil] at read
  exact nomatch read

theorem readSigns_of_head {c : Char} (notMinus : c ≠ '-') (notBang : c ≠ '!') (rest : List Char) :
    readSigns (c :: rest) = ([], c :: rest) := by
  rw [readSigns.eq_def]
  split
  · rename_i starts
    exact absurd (List.cons.inj starts).1 notMinus
  · rename_i starts
    exact absurd (List.cons.inj starts).1 notMinus
  · rename_i starts
    exact absurd (List.cons.inj starts).1 notBang
  · rfl

theorem readSigns_minus {text : List Char} (notMinus : text.head? ≠ some '-') :
    readSigns ('-' :: text) = ("-" :: (readSigns text).1, (readSigns text).2) := by
  cases text with
  | nil => rfl
  | cons c rest =>
    refine readSigns.eq_2 _ fun rest' starts => notMinus ?_
    rw [starts]
    rfl

/-- Unary operators in front of what starts with another character. -/
theorem readSigns_signText {signs : List String} (known : ∀ sign ∈ signs, sign = "-" ∨ sign = "!")
    {c : Char} (notMinus : c ≠ '-') (notBang : c ≠ '!') (rest : List Char) :
    readSigns (signText signs ++ c :: rest) = (joinSigns signs, c :: rest) := by
  have bang : ∀ text, readSigns ("!".toList ++ text) = ("!" :: (readSigns text).1, (readSigns text).2) :=
    fun text => readSigns.eq_3 text
  fun_induction joinSigns signs with
  | case1 first second others both ih =>
    obtain ⟨rfl, rfl⟩ := both
    have inner := ih fun sign member => known sign (.tail _ (.tail _ member))
    change readSigns ('-' :: '-' :: (signText others ++ c :: rest)) = _
    rw [readSigns, inner]
  | case2 first second others apart ih =>
    have inner := ih fun sign member => known sign (.tail _ member)
    change readSigns (first.toList ++ signText (second :: others) ++ c :: rest) = _
    rw [List.append_assoc]
    rcases known first (.head _) with rfl | rfl
    · have next : second = "!" := (known second (.tail _ (.head _))).resolve_left fun minus =>
        apart ⟨rfl, minus⟩
      have other : (signText (second :: others) ++ c :: rest).head? ≠ some '-' := by
        subst next
        exact fun minus => absurd (Option.some.inj minus) (by decide)
      refine (readSigns_minus other).trans ?_
      rw [inner]
    · rw [bang, inner]
  | case3 signs short =>
    have stop := readSigns_of_head notMinus notBang rest
    rcases signs with _ | ⟨sign, _ | ⟨second, others⟩⟩
    · exact stop
    · rcases known sign (.head _) with rfl | rfl
      · have other : (c :: rest).head? ≠ some '-' := fun minus => notMinus (Option.some.inj minus)
        change readSigns ('-' :: c :: rest) = _
        rw [readSigns_minus other, stop]
      · change readSigns ("!".toList ++ c :: rest) = _
        rw [bang, stop]
    · exact absurd rfl (short sign second others)

theorem readCore_mark {c : Char} (mark : isIdentifierChar c = false) (notOpening : c ≠ '(')
    (rest : List Char) : readCore isLiteral (c :: rest) = none := by
  have front : frontWord (c :: rest) = "" := by
    rw [frontWord, List.takeWhile_cons_of_neg (Bool.eq_false_iff.mp mark)]
  rw [readCore.eq_def]
  split
  · rename_i starts
    exact absurd (List.cons.inj starts).1 notOpening
  · rw [front, readWord, if_pos rfl]

theorem ReadsBack.not_closing {e : Expr} (readable : ReadsBack isLiteral e) (rest : List Char) :
    e.chars ≠ ')' :: rest := by
  intro closing
  have read := readable [] (GoesOn.nil _)
  have stuck : readOperand isLiteral (')' :: rest) = none := by
    rw [readOperand, readSigns_of_head (by decide) (by decide),
      readCore_mark isLiteral (by decide +kernel) (by decide)]
    rfl
  rw [closing, List.append_nil, readExpr, stuck] at read
  exact nomatch read

theorem readArgumentList_commaSeparated {args : List Expr} (nonempty : args ≠ [])
    (readable : ∀ arg ∈ args, ReadsBack isLiteral arg) (rest : List Char) :
    readArgumentList isLiteral (commaSeparated (charsAll args) ++ ')' :: rest) = some (args, rest) := by
  induction args with
  | nil => exact absurd rfl nonempty
  | cons arg others ih =>
    have first := readable arg List.mem_cons_self
    have filled := first.chars_ne_nil
    cases others with
    | nil =>
      rw [charsAll, charsAll, commaSeparated_singleton, readArgumentList.eq_def,
        first _ (GoesOn.cons (by decide) _), advancing_append filled]
      rfl
    | cons second others =>
      have inner := ih nofun fun arg member => readable arg (List.mem_cons_of_mem _ member)
      rw [charsAll] at inner
      rw [charsAll, charsAll, commaSeparated_cons_cons, List.append_assoc, List.cons_append,
        readArgumentList.eq_def, first _ (GoesOn.cons (by decide) _), advancing_append filled]
      simp only [List.cons_append, inner, Option.map_some]

theorem readArguments_commaSeparated {args : List Expr}
    (readable : ∀ arg ∈ args, ReadsBack isLiteral arg) (rest : List Char) :
    readArguments isLiteral (commaSeparated (charsAll args) ++ ')' :: rest) = some (args, rest) := by
  cases args with
  | nil => rw [charsAll]; exact readArguments.eq_1 ..
  | cons arg others =>
    have nonempty : arg :: others ≠ [] := nofun
    have first := readable arg List.mem_cons_self
    obtain ⟨c, front, chars⟩ := List.exists_cons_of_ne_nil first.chars_ne_nil
    obtain ⟨more, separated⟩ : ∃ more, commaSeparated (charsAll (arg :: others)) = arg.chars ++ more := by
      cases others with
      | nil => exact ⟨[], by rw [charsAll, charsAll, commaSeparated_singleton, List.append_nil]⟩
      | cons second others => exact ⟨_, commaSeparated_cons_cons _ _ _⟩
    rw [readArguments.eq_def]
    split
    · rename_i closing
      rw [separated, chars] at closing
      obtain rfl : c = ')' := (List.cons.inj closing).1
      exact absurd chars (first.not_closing isLiteral _)
    · exact readArgumentList_commaSeparated isLiteral nonempty readable rest

theorem readNamed_call {typeArgs : List String} {args : List Expr}
    (words : ∀ arg ∈ typeArgs, IsWord arg) (readable : ∀ arg ∈ args, ReadsBack isLiteral arg)
    (plain : Expr) (applied : List String → List Expr → Expr) (rest : List Char) :
    readNamed isLiteral plain applied
        (typeArgChars typeArgs ++ '(' :: (commaSeparated (charsAll args) ++ ')' :: rest)) =
      readBehind isLiteral (applied typeArgs args) rest := by
  have inside := readArguments_commaSeparated isLiteral readable rest
  rw [readNamed, readOpening_typeArgChars words,
    advancing_some _ (by simp only [List.length_append, List.length_cons]; omega)]
  dsimp only
  rw [inside, advancing_some _ (by simp only [List.length_append, List.length_cons]; omega)]

theorem goesOn_typeArgChars (typeArgs : List String) (rest : List Char) :
    GoesOn punctuation (typeArgChars typeArgs ++ '(' :: rest) := by
  cases typeArgs with
  | nil => exact GoesOn.cons (by decide) _
  | cons arg others => exact GoesOn.cons (by decide) _

theorem forall_mem_denotedAll {args : List Expr} {property : Expr → Prop}
    (each : ∀ arg ∈ args, property arg.denoted) : ∀ arg ∈ denotedAll args, property arg := by
  rw [denotedAll_eq_map]
  exact List.forall_mem_map.mpr each

/-! ### Texts of expressions -/

/-- An operand is read in two steps: its unary operators, and what they apply to, which may be gone
on with. -/
structure Legible (e : Expr) : Prop where
  signs : ∀ sign ∈ e.signs, sign = "-" ∨ sign = "!"
  core : ∀ rest, GoesOn ['.', ' ', ',', ')'] rest →
    readCore isLiteral (e.core.asOperand ++ rest) = readBehind isLiteral e.core rest

namespace Legible

variable {isLiteral} {e : Expr} {rest : List Char}

/-- What unary operators apply to starts with none. -/
theorem core_front (legible : Legible isLiteral e) :
    ∃ c more, e.core.asOperand = c :: more ∧ c ≠ '-' ∧ c ≠ '!' := by
  have read := legible.core [] (GoesOn.nil _)
  rw [readBehind_of_goesOn isLiteral _ (GoesOn.nil _), List.append_nil] at read
  cases chars : e.core.asOperand with
  | nil =>
    have none : readCore isLiteral [] = none := by
      rw [readCore.eq_def]
      dsimp only
      rw [show frontWord [] = "" from rfl, readWord, if_pos rfl]
    rw [chars, none] at read
    exact nomatch read
  | cons c more =>
    rw [chars] at read
    refine ⟨c, more, rfl, ?_, ?_⟩
    · rintro rfl
      rw [readCore_mark isLiteral (by decide +kernel) (by decide)] at read
      exact nomatch read
    · rintro rfl
      rw [readCore_mark isLiteral (by decide +kernel) (by decide)] at read
      exact nomatch read

theorem asOperand_ne_nil (legible : Legible isLiteral e) : e.asOperand ≠ [] := by
  obtain ⟨c, more, front, -, -⟩ := legible.core_front
  rw [asOperand_eq, front]
  exact List.append_ne_nil_of_right_ne_nil _ nofun

theorem operand (legible : Legible isLiteral e) (goesOn : GoesOn [' ', ',', ')'] rest) :
    readOperand isLiteral (e.asOperand ++ rest) = some (e.denoted, rest) := by
  obtain ⟨c, more, front, notMinus, notBang⟩ := legible.core_front
  have core := legible.core rest (goesOn.mono (by decide))
  rw [readBehind_of_goesOn isLiteral _ goesOn, front] at core
  have split : readSigns (e.asOperand ++ rest) = (joinSigns e.signs, c :: (more ++ rest)) := by
    rw [asOperand_eq, front, List.append_assoc]
    exact readSigns_signText legible.signs notMinus notBang _
  rw [readOperand, split, ← List.cons_append, core]
  rfl

/-- As an expression, an operand that is no binary operation is read alike. -/
theorem readsBack (legible : Legible isLiteral e) (notBinary : e.isBinary = false) :
    ReadsBack isLiteral e.denoted := by
  intro rest goesOn
  have bare : e.denoted.chars = e.asOperand := by
    rw [chars_denoted, asOperand, operandChars, if_neg (Bool.eq_false_iff.mp notBinary)]
  rw [bare, readExpr, legible.operand (goesOn.mono (by decide)),
    advancing_append legible.asOperand_ne_nil]
  dsimp only
  rw [readChain_of_goesOn isLiteral goesOn, Option.map_some, ofChain_nil]

theorem member {name : String} (legible : Legible isLiteral e) (word : IsWord name) :
    Legible isLiteral (.member e name) where
  signs := legible.signs
  core rest goesOn := by
    have behind : GoesOn ['.', ' ', ',', ')'] ('.' :: (name.toList ++ rest)) :=
      GoesOn.cons (.head _) _
    change readCore isLiteral (e.core.asOperand ++ '.' :: name.toList ++ rest) = _
    rw [List.append_assoc, List.cons_append, legible.core _ behind,
      readBehind_member isLiteral word _ (goesOn.mono (by decide)),
      readNamed_of_goesOn isLiteral _ _ goesOn]
    rfl

theorem callOn {method : String} {typeArgs : List String} {args : List Expr}
    (legible : Legible isLiteral e) (word : IsWord method) (words : ∀ arg ∈ typeArgs, IsWord arg)
    (readable : ∀ arg ∈ args, ReadsBack isLiteral arg.denoted) :
    Legible isLiteral (.callOn e method typeArgs args) where
  signs := legible.signs
  core rest _ := by
    have behind : ∀ text, GoesOn ['.', ' ', ',', ')'] ('.' :: text) := GoesOn.cons (.head _)
    have arguments := forall_mem_denotedAll readable
    change readCore isLiteral (e.core.asOperand ++ '.' :: method.toList ++ typeArgChars typeArgs ++
      '(' :: commaSeparated (charsAll (denotedAll args)) ++ [')'] ++ rest) = _
    simp only [List.append_assoc, List.cons_append, List.nil_append]
    rw [legible.core _ (behind _), readBehind_member isLiteral word _ (goesOn_typeArgChars _ _),
      readNamed_call isLiteral words arguments]
    rfl

theorem unary (legible : Legible isLiteral e) (op : UnaryOperator) :
    Legible isLiteral (.unary op.token e) where
  signs sign member := by
    rcases List.mem_cons.mp member with rfl | member
    · cases op with
      | negate => exact .inl rfl
      | not => exact .inr rfl
    · exact legible.signs sign member
  core := legible.core

end Legible

variable {isLiteral}

theorem legible_literal {text : String} (word : IsWord text) (isLit : isLiteral text = true) :
    Legible isLiteral (.literal text) where
  signs := nofun
  core rest goesOn := by
    refine (readCore_word isLiteral word (goesOn.mono (by decide))).trans ?_
    rw [if_pos isLit, readNamed_of_goesOn isLiteral _ _ goesOn]
    rfl

theorem legible_ident {name : String} (word : IsWord name) (isName : isLiteral name = false) :
    Legible isLiteral (.ident name) where
  signs := nofun
  core rest goesOn := by
    refine (readCore_word isLiteral word (goesOn.mono (by decide))).trans ?_
    rw [isName, if_neg nofun, readNamed_of_goesOn isLiteral _ _ goesOn]
    rfl

theorem legible_this : Legible isLiteral .this where
  signs := nofun
  core _ goesOn := readCore_this isLiteral (goesOn.mono (by decide))

theorem legible_defaultOf {type : String} (word : IsWord type) :
    Legible isLiteral (.defaultOf type) where
  signs := nofun
  core rest _ := by
    change readCore isLiteral ("default(".toList ++ type.toList ++ [')'] ++ rest) = _
    have parts : "default(".toList ++ type.toList ++ [')'] ++ rest =
        "default".toList ++ '(' :: (type.toList ++ ')' :: rest) := by
      simp
    rw [parts, readCore_default isLiteral word]
    rfl

theorem legible_call {method : String} {typeArgs : List String} {args : List Expr}
    (word : IsWord method) (words : ∀ arg ∈ typeArgs, IsWord arg)
    (readable : ∀ arg ∈ args, ReadsBack isLiteral arg.denoted) :
    Legible isLiteral (.call method typeArgs args) where
  signs := nofun
  core rest _ := by
    have arguments := forall_mem_denotedAll readable
    change readCore isLiteral (method.toList ++ typeArgChars typeArgs ++
      '(' :: commaSeparated (charsAll (denotedAll args)) ++ [')'] ++ rest) = _
    simp only [List.append_assoc, List.cons_append, List.nil_append]
    rw [readCore_word isLiteral word (goesOn_typeArgChars _ _),
      readNamed_call isLiteral words arguments]
    rfl

theorem readOperator_token (op : BinaryOperator) (rest : List Char) :
    readOperator (op.token.toList ++ ' ' :: rest) = some (op, rest) := by
  cases op <;> rfl

theorem readChain_single {e : Expr} {rest : List Char} (op : BinaryOperator)
    (right : Legible isLiteral e) (goesOn : GoesOn [',', ')'] rest) :
    readChain isLiteral (' ' :: (op.token.toList ++ ' ' :: (e.asOperand ++ rest))) =
      some ([(op, e.denoted)], rest) := by
  rw [readChain, readOperator_token,
    advancing_some _ (by simp only [List.length_append, List.length_cons]; omega)]
  dsimp only
  rw [right.operand (goesOn.mono (by decide)), advancing_append right.asOperand_ne_nil]
  dsimp only
  rw [readChain_of_goesOn isLiteral goesOn]
  rfl

theorem readsBack_binary {lhs rhs : Expr} (op : BinaryOperator) (left : Legible isLiteral lhs)
    (right : Legible isLiteral rhs) :
    ReadsBack isLiteral (.binary op.token lhs.denoted rhs.denoted) := by
  intro rest goesOn
  have blank : ∀ text, GoesOn [' ', ',', ')'] (' ' :: text) := GoesOn.cons (.head _)
  change readExpr isLiteral (lhs.denoted.asOperand ++ ' ' :: op.token.toList ++
    ' ' :: rhs.denoted.asOperand ++ rest) = _
  rw [asOperand_denoted, asOperand_denoted]
  simp only [List.append_assoc, List.cons_append]
  rw [readExpr, left.operand (blank _), advancing_append left.asOperand_ne_nil]
  dsimp only
  rw [readChain_single op right goesOn, Option.map_some, ofChain_single]

/-- A binary operation stands in parentheses as an operand. -/
theorem legible_binary {lhs rhs : Expr} (op : BinaryOperator) (left : Legible isLiteral lhs)
    (right : Legible isLiteral rhs) : Legible isLiteral (.binary op.token lhs rhs) where
  signs := nofun
  core rest _ := by
    have whole := readsBack_binary op left right
    have inside := whole (')' :: rest) (GoesOn.cons (.tail _ (.head _)) rest)
    change readCore isLiteral
      ('(' :: (Expr.binary op.token lhs.denoted rhs.denoted).chars ++ [')'] ++ rest) = _
    rw [List.append_assoc, List.singleton_append, List.cons_append, readCore, inside,
      advancing_append (whole.chars_ne_nil isLiteral)]
    rfl

/-- The text of an expression is read as what it denotes, as an operand and as a whole. -/
theorem Worded.legible {e : Expr} (worded : e.Worded isLiteral) :
    Legible isLiteral e ∧ ReadsBack isLiteral e.denoted := by
  -- Only a binary operation is not the same as an operand.
  have both : ∀ {e : Expr}, Legible isLiteral e → e.isBinary = false →
      Legible isLiteral e ∧ ReadsBack isLiteral e.denoted :=
    fun legible notBinary => ⟨legible, legible.readsBack notBinary⟩
  induction worded with
  | literal word isLit => exact both (legible_literal word isLit) rfl
  | ident word isName => exact both (legible_ident word isName) rfl
  | this => exact both legible_this rfl
  | member _ word target => exact both (target.1.member word) rfl
  | call word words _ args =>
    exact both (legible_call word words fun arg member => (args arg member).2) rfl
  | callOn _ word words _ target args =>
    exact both (target.1.callOn word words fun arg member => (args arg member).2) rfl
  | binary op _ _ lhs rhs => exact ⟨legible_binary op lhs.1 rhs.1, readsBack_binary op lhs.1 rhs.1⟩
  | unary op _ operand => exact both (operand.1.unary op) rfl
  | defaultOf word => exact both (legible_defaultOf word) rfl

/-- The text of an expression is read as the expression that it denotes. -/
theorem read?_text {e : Expr} (worded : e.Worded isLiteral) : read? isLiteral e.text = some e.denoted := by
  have whole := worded.legible.2 [] (GoesOn.nil _)
  rw [List.append_nil, chars_denoted] at whole
  rw [read?, text, String.toList_ofList, whole]

/-- Two expressions have one text exactly if their texts denote the same. -/
theorem text_eq_iff {e e' : Expr} (worded : e.Worded isLiteral) (worded' : e'.Worded isLiteral) :
    e.text = e'.text ↔ e.denoted = e'.denoted := by
  constructor
  · intro same
    have read := read?_text worded
    rw [same, read?_text worded'] at read
    exact (Option.some.inj read).symm
  · intro same
    have chars : e.chars = e'.chars := by rw [← chars_denoted e, same, chars_denoted]
    exact congrArg String.ofList chars

end Reader

/-- What the text of an expression denotes when it is read back, and which expressions share a text.
An expression is read back as itself exactly if no member is taken of a unary operation, no method is
called on one, and no minus sign stands directly in front of another. -/
theorem text_denotes {isLiteral : String → Bool} {e : Expr} (worded : e.Worded isLiteral) :
    read? isLiteral e.text = some e.denoted ∧
      (read? isLiteral e.text = some e ↔ e.isClear = true) ∧
      ∀ e' : Expr, e'.Worded isLiteral → (e.text = e'.text ↔ e.denoted = e'.denoted) := by
  have read := read?_text worded
  refine ⟨read, ?_, fun e' worded' => text_eq_iff worded worded'⟩
  rw [read, Option.some.injEq]
  exact (isClear_iff e).symm

/-- A member of a sum is read back as it is: the sum stands in parentheses. -/
theorem text_denotes_member_of_sum :
    let e := Expr.member (.binary "+" (.ident "a") (.ident "b")) "x"
    e.Worded (fun _ => false) ∧ read? (fun _ => false) e.text = some e := by
  intro e
  have lhs : Worded (fun _ => false) (.ident "a") := .ident (by decide +kernel) rfl
  have rhs : Worded (fun _ => false) (.ident "b") := .ident (by decide +kernel) rfl
  have worded : e.Worded (fun _ => false) := .member (.binary .add lhs rhs) (by decide +kernel)
  exact ⟨worded, (text_denotes worded).2.1.mpr rfl⟩

/-- A member of a negated value and the negated member have one text. -/
theorem text_ambiguous :
    let e := Expr.member (.unary "-" (.ident "a")) "x"
    let e' := Expr.unary "-" (.member (.ident "a") "x")
    e.Worded (fun _ => false) ∧ e'.Worded (fun _ => false) ∧ e.text = e'.text ∧ e ≠ e' := by
  intro e e'
  have operand : Worded (fun _ => false) (.ident "a") := .ident (by decide +kernel) rfl
  have word : IsWord "x" := by decide +kernel
  exact ⟨.member (.unary .negate operand) word, .unary .negate (.member operand word), rfl, nofun⟩

end Expr

end NodeScript
