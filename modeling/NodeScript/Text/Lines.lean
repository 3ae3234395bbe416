import NodeScript.Text.Ranges

/-!
White space: the 25 characters of the Unicode property White_Space, and the two ways text is
stripped of it.

Text cut into lines, and the search for one text inside another.
-/

namespace NodeScript

/-! ### White space -/

/-- The characters with the property White_Space. -/
def blankRanges : CodeRanges := [
  (0x9, 0xD), (0x20, 0x20), (0x85, 0x85), (0xA0, 0xA0), (0x1680, 0x1680), (0x2000, 0x200A),
  (0x2028, 0x2029), (0x202F, 0x202F), (0x205F, 0x205F), (0x3000, 0x3000)]

/-- Whether a character is white space. -/
def isBlank (c : Char) : Bool :=
  blankRanges.holdsChar c

/-- The text from its first character that is not white space. -/
def skipBlank (text : List Char) : List Char :=
  text.dropWhile isBlank

/-- The text without white space at either end. -/
def trimBlank (text : List Char) : List Char :=
  (skipBlank (skipBlank text).reverse).reverse

/-- Leaving out blanks makes no text longer. -/
theorem length_skipBlank_le (text : List Char) : (skipBlank text).length ≤ text.length :=
  (List.dropWhile_sublist _).length_le

/-- A text that starts with no blank stays as it is. -/
theorem skipBlank_cons_of_not_blank {c : Char} {rest : List Char} (solid : isBlank c = false) :
    skipBlank (c :: rest) = c :: rest := by
  simp [skipBlank, List.dropWhile, solid]

/-! ### Lines -/

/-- The first line of a text and what follows its line break, if it has one. -/
def cutLine : List Char → List Char × Option (List Char)
  | [] => ([], none)
  | c :: rest =>
    if c = '\n' then ([], some rest)
    else
      let (line, after) := cutLine rest
      (c :: line, after)

/-- What is left behind a line is shorter than the text. -/
theorem length_cutLine_lt {text after : List Char} (cut : (cutLine text).2 = some after) :
    after.length < text.length := by
  induction text with
  | nil => simp [cutLine] at cut
  | cons c rest ih =>
    unfold cutLine at cut
    split at cut
    · simp only [Option.some.injEq] at cut
      simp [← cut]
    · have := ih cut
      simp only [List.length_cons]
      omega

/-- A line without the carriage return that belongs to its line break. -/
def dropReturn (line : List Char) : List Char :=
  if line.getLast? = some '\r' then line.dropLast else line

/-- The lines of a text. A line break is a line feed with or without a carriage return before it,
and one at the end of the text starts no further line. -/
def textLines (text : List Char) : List (List Char) :=
  match h : cutLine text with
  | (line, some rest) =>
    have : rest.length < text.length := length_cutLine_lt (by rw [h])
    dropReturn line :: textLines rest
  | (line, none) => if line.isEmpty then [] else [line]
termination_by text.length

/-- Whether a text stands somewhere in another. -/
def occursIn (part : List Char) : List Char → Bool
  | [] => part.isEmpty
  | c :: rest => part.isPrefixOf (c :: rest) || occursIn part rest

/-- The text before the first occurrence of a character and the text behind it. -/
def cutAt? (mark : Char) : List Char → Option (List Char × List Char)
  | [] => none
  | c :: rest =>
    if c = mark then some ([], rest)
    else (cutAt? mark rest).map fun (before, after) => (c :: before, after)

/-- The text before the first occurrence of a text and the text behind it. -/
def cutAround? (part : List Char) : List Char → Option (List Char × List Char)
  | [] => if part.isEmpty then some ([], []) else none
  | c :: rest =>
    match part.isPrefixOf? (c :: rest) with
    | some after => some ([], after)
    | none => (cutAround? part rest).map fun (before, after) => (c :: before, after)

end NodeScript
