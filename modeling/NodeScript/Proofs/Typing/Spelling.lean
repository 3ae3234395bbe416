import Mathlib.Data.List.TakeWhile
import NodeScript.Proofs.Typing.TypeText

/-!
All spellings of types, and what the reader says of any text. A type is spelled with white space
between its parts. The reader accepts the spellings and nothing else, and of any other text it names
the first character after which the text can no longer become a spelling.
-/

namespace NodeScript

/-- White space of any length, possibly none. -/
def AllBlank (text : List Char) : Prop := ∀ c ∈ text, isBlank c = true

mutual

/-- The texts that a type is derived from: its name between white space, its arguments in angle
brackets, and square brackets around an element type for an array. -/
inductive TypeExpr.SpelledBy : TypeExpr → List Char → Prop
  | plain {before after name} : AllBlank before → IsTypeName name → AllBlank after →
      SpelledBy (.plain name) (before ++ name.toList ++ after)
  | applied {before after name args inside} : AllBlank before → IsTypeName name → AllBlank after →
      TypeExpr.ArgsSpelledBy args inside →
      SpelledBy (.named name args) (before ++ name.toList ++ after ++ '<' :: inside ++ ['>'])
  | array {element text before between} : SpelledBy element text → AllBlank before →
      AllBlank between → SpelledBy (.array element) (text ++ before ++ '[' :: between ++ [']'])

/-- The texts that arguments are derived from: at least one, with commas between them. -/
inductive TypeExpr.ArgsSpelledBy : List TypeExpr → List Char → Prop
  | last {arg text after} : SpelledBy arg text → AllBlank after →
      ArgsSpelledBy [arg] (text ++ after)
  | more {arg text after others inside} : SpelledBy arg text → AllBlank after →
      ArgsSpelledBy others inside → ArgsSpelledBy (arg :: others) (text ++ after ++ ',' :: inside)

end

/-- The text is a spelling of the type with white space behind it. -/
def TypeExpr.Spells (t : TypeExpr) (text : List Char) : Prop :=
  ∃ body after, t.SpelledBy body ∧ AllBlank after ∧ text = body ++ after

/-- Something can be written behind the text so that the whole is a spelling. -/
def CanBecomeType (text : List Char) : Prop := ∃ t completion, TypeExpr.Spells t (text ++ completion)

/-! ### White space -/

section Blanks

variable {blanks text rest : List Char}

theorem allBlank_nil : AllBlank [] := nofun

theorem AllBlank.append {more : List Char} (first : AllBlank blanks) (next : AllBlank more) :
    AllBlank (blanks ++ more) :=
  List.forall_mem_append.mpr ⟨first, next⟩

theorem AllBlank.skipBlank_append (all : AllBlank blanks) (text : List Char) :
    skipBlank (blanks ++ text) = skipBlank text :=
  List.dropWhile_append_of_pos all

/-- Every text is white space and what is left when it is skipped. -/
theorem exists_blanks (text : List Char) :
    ∃ blanks, AllBlank blanks ∧ text = blanks ++ skipBlank text :=
  ⟨text.takeWhile isBlank, List.all_eq_true.mp List.all_takeWhile,
    List.takeWhile_append_dropWhile.symm⟩

theorem skipBlank_skipBlank (text : List Char) : skipBlank (skipBlank text) = skipBlank text := by
  obtain ⟨blanks, all, split⟩ := exists_blanks text
  have skipped := all.skipBlank_append (skipBlank text)
  rw [← split] at skipped
  exact skipped.symm

theorem allBlank_of_skipBlank_eq_nil (skipped : skipBlank text = []) : AllBlank text :=
  List.dropWhile_eq_nil_iff.mp skipped

/-- What is left when white space is skipped starts with none, and so does any text that starts with
the same character. -/
theorem skipBlank_of_head? (head : rest.head? = (skipBlank text).head?) : skipBlank rest = rest := by
  cases rest with
  | nil => rfl
  | cons c more =>
    have first := List.head?_dropWhile_not isBlank text
    rw [show text.dropWhile isBlank = skipBlank text from rfl, ← head] at first
    exact skipBlank_cons_of_not_blank (by simpa using first)

end Blanks

/-- A name ends where a character follows that names do not have. -/
def EndsName (text : List Char) : Prop := ∀ c ∈ text.head?, isTypeNameChar c = false

theorem AllBlank.endsName {blanks text : List Char} (all : AllBlank blanks)
    (ends : EndsName text) : EndsName (blanks ++ text) := by
  cases blanks with
  | nil => exact ends
  | cons c more =>
    have blank := all c (.head _)
    rintro _ ⟨⟩
    cases name : isTypeNameChar c with
    | false => rfl
    | true =>
      rw [isBlank_eq_false_of_name name] at blank
      exact nomatch blank

/-! ### Spellings are read -/

theorem readBrackets_skipBlank (element : TypeExpr) (text : List Char) :
    readOf (readBrackets element (skipBlank text)) = readOf (readBrackets element text) := by
  rw [readOf_readBrackets, readOf_readBrackets, skipBlank_skipBlank]

theorem AllBlank.readBrackets_append {blanks : List Char} (all : AllBlank blanks)
    (element : TypeExpr) (text : List Char) :
    readOf (readBrackets element (blanks ++ text)) = readOf (readBrackets element text) := by
  rw [← readBrackets_skipBlank, all.skipBlank_append, readBrackets_skipBlank]

theorem readBrackets_spaced {before between : List Char} (blank : AllBlank before)
    (blank' : AllBlank between) (element : TypeExpr) (tail : List Char) :
    readOf (readBrackets element (before ++ '[' :: between ++ ']' :: tail)) =
      readOf (readBrackets (.array element) tail) := by
  have opening : skipBlank (before ++ '[' :: between ++ ']' :: tail) =
      '[' :: (between ++ ']' :: tail) := by
    rw [List.append_assoc, blank.skipBlank_append]
    rfl
  have closing : skipBlank (between ++ ']' :: tail) = ']' :: tail := by
    rw [blank'.skipBlank_append]
    rfl
  rw [readOf_readBrackets, opening]
  simp only [closing]

section Names

variable {before after : List Char} {name : String}

/-- A name between white space is read as a type without arguments unless an angle bracket follows. -/
theorem readType_plain (blank : AllBlank before) (named : IsTypeName name) {tail : List Char}
    (ends : EndsName tail) (other : (skipBlank tail).head? ≠ some '<') :
    readOf (readType (before ++ name.toList ++ tail)) = readOf (readBrackets (.plain name) tail) := by
  have start : skipBlank (before ++ name.toList ++ tail) = name.toList ++ tail := by
    rw [List.append_assoc, blank.skipBlank_append, named.skipBlank_append]
  obtain ⟨taken, left⟩ := span_append named.2 ends
  rw [readOf_readType, start, taken, left]
  rw [if_neg named.1, String.ofList_toList, ← readBrackets_skipBlank _ tail]
  split
  · rename_i inside opened
    rw [opened] at other
    exact absurd rfl other
  · rfl

/-- A name with an angle bracket behind it is read as a type with arguments. -/
theorem readType_angle (blank : AllBlank before) (named : IsTypeName name) (blank' : AllBlank after)
    (inside : List Char) :
    readOf (readType (before ++ name.toList ++ after ++ '<' :: inside)) =
      (readOf (readArgs inside)).bind fun (args, rest) =>
        readOf (readBrackets (.named name args) rest) := by
  have start : skipBlank (before ++ name.toList ++ after ++ '<' :: inside) =
      name.toList ++ (after ++ '<' :: inside) := by
    rw [List.append_assoc, List.append_assoc, blank.skipBlank_append, named.skipBlank_append]
  have ends : EndsName (after ++ '<' :: inside) := blank'.endsName (by rintro _ ⟨⟩; decide)
  have opening : skipBlank (after ++ '<' :: inside) = '<' :: inside := by
    rw [blank'.skipBlank_append]
    rfl
  obtain ⟨taken, left⟩ := span_append named.2 ends
  rw [readOf_readType, start, taken, left]
  rw [if_neg named.1, String.ofList_toList, opening]
  rfl

end Names

theorem GoesOn.endsName {marks text : List Char} (goes : GoesOn marks (NodeScript.skipBlank text))
    (other : marks.any isTypeNameChar = false) : EndsName text := by
  obtain ⟨blanks, blank, split⟩ := exists_blanks text
  rw [split]
  exact blank.endsName (goes.stops other)

mutual

/-- A spelling is read as its type, whatever ends the type behind it, and brackets may follow. -/
theorem TypeExpr.SpelledBy.read {t : TypeExpr} {body : List Char} :
    t.SpelledBy body → ∀ {tail}, GoesOn [',', '>', '['] (skipBlank tail) →
      readOf (readType (body ++ tail)) = readOf (readBrackets t tail)
  | @TypeExpr.SpelledBy.plain before after name blank word blank', tail, goes => by
    have ends : EndsName (after ++ tail) := blank'.endsName (goes.endsName (by decide))
    have other : (skipBlank (after ++ tail)).head? ≠ some '<' := by
      rw [blank'.skipBlank_append]
      exact goes.head?_ne (by decide)
    rw [List.append_assoc, readType_plain blank word ends other, blank'.readBrackets_append]
  | @TypeExpr.SpelledBy.applied before after name args inside blank word blank' spelled, tail, _ => by
    have split : before ++ name.toList ++ after ++ '<' :: inside ++ ['>'] ++ tail =
        before ++ name.toList ++ after ++ '<' :: (inside ++ '>' :: tail) := by simp
    rw [split, readType_angle blank word blank', spelled.read tail]
    rfl
  | @TypeExpr.SpelledBy.array element text before between spelled blank blank', tail, _ => by
    have split : text ++ before ++ '[' :: between ++ [']'] ++ tail =
        text ++ (before ++ '[' :: between ++ ']' :: tail) := by simp
    have goes : GoesOn [',', '>', '['] (skipBlank (before ++ '[' :: between ++ ']' :: tail)) := by
      rw [List.append_assoc, blank.skipBlank_append]
      rintro _ ⟨⟩
      decide
    rw [split, spelled.read goes, readBrackets_spaced blank blank']

/-- A spelling of arguments is read up to and with the closing bracket. -/
theorem TypeExpr.ArgsSpelledBy.read {args : List TypeExpr} {inside : List Char} :
    TypeExpr.ArgsSpelledBy args inside → ∀ tail,
      readOf (readArgs (inside ++ '>' :: tail)) = .ok (args, tail)
  | @TypeExpr.ArgsSpelledBy.last arg text after spelled blank, tail => by
    have behind : skipBlank (after ++ '>' :: tail) = '>' :: tail := by
      rw [blank.skipBlank_append]
      rfl
    have goes : GoesOn [',', '>'] ('>' :: tail) := by rintro _ ⟨⟩; decide
    rw [List.append_assoc, readOf_readArgs, spelled.read (behind.symm ▸ goes.mono (by simp)),
      blank.readBrackets_append, readBrackets_end _ goes]
    rfl
  | @TypeExpr.ArgsSpelledBy.more arg text after others inside spelled blank rest, tail => by
    have split : text ++ after ++ ',' :: inside ++ '>' :: tail =
        text ++ (after ++ ',' :: (inside ++ '>' :: tail)) := by simp
    have behind : skipBlank (after ++ ',' :: (inside ++ '>' :: tail)) =
        ',' :: (inside ++ '>' :: tail) := by
      rw [blank.skipBlank_append]
      rfl
    have goes : GoesOn [',', '>'] (',' :: (inside ++ '>' :: tail)) := by rintro _ ⟨⟩; decide
    rw [split, readOf_readArgs, spelled.read (behind.symm ▸ goes.mono (by simp)),
      blank.readBrackets_append, readBrackets_end _ goes]
    change (readOf (readArgs (inside ++ '>' :: tail))).map _ = _
    rw [rest.read tail]
    rfl

end

end NodeScript
