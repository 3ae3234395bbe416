import NodeScript.Proofs.Numeric.Numerals
import NodeScript.Proofs.Typing.FirstFault
import NodeScript.Translation.Diagnostics

/-!
The output of a compiler read back. A line that reports an error names a file, a line and a column in
front of its message. The reader looks for the first parentheses of the line, which are those behind the
file name unless that has parentheses of its own.
-/

namespace NodeScript

/-! ### Parts of a text -/

section Parts

variable {mark : Char} {before after text part line : List Char}

theorem occursIn_iff : occursIn part text = true ↔ part <:+: text := by
  induction text with
  | nil => simp [occursIn, List.isEmpty_iff]
  | cons c rest ih =>
    rw [occursIn, Bool.or_eq_true, ih, List.isPrefixOf_iff_prefix, List.infix_cons_iff]

/-- A text is cut at a character where that stands first. -/
theorem cutAt?_append (absent : mark ∉ before) :
    cutAt? mark (before ++ mark :: after) = some (before, after) := by
  induction before with
  | nil => simp [cutAt?]
  | cons c rest ih =>
    obtain ⟨other, later⟩ := not_or.mp (mt List.mem_cons.mpr absent)
    rw [List.cons_append, cutAt?, if_neg (Ne.symm other), ih later]
    rfl

/-- What is taken from the front of a text ends before the first character that is not taken. -/
theorem takeWhile_append_cons {p : Char → Bool} {c : Char} (stops : p c = false) :
    (before ++ c :: after).takeWhile p = before.takeWhile p := by
  rw [List.takeWhile_append]
  split
  · rename_i whole
    have all : before.takeWhile p = before := (List.takeWhile_sublist p).eq_of_length whole
    rw [List.takeWhile_cons_of_neg (by simp [stops]), List.append_nil, all]
  · rfl

theorem dropWhile_append_cons {p : Char → Bool} {c : Char} (stops : p c = false) :
    (before ++ c :: after).dropWhile p = before.dropWhile p ++ c :: after := by
  rw [List.dropWhile_append]
  split
  · rename_i none
    rw [List.dropWhile_cons_of_neg (by simp [stops]), List.isEmpty_iff.mp none, List.nil_append]
  · rfl

/-! ### Blanks at the ends -/

/-- A text that stripped of its blanks ends with none. -/
theorem getLast?_trimBlank (text : List Char) :
    ∀ d ∈ (trimBlank text).getLast?, isBlank d = false := by
  intro d last
  rw [trimBlank, List.getLast?_reverse] at last
  have first := List.head?_dropWhile_not isBlank (skipBlank text).reverse
  rw [skipBlank, Option.mem_def] at last
  rw [last] at first
  simpa using first

/-- Of a text that ends with no blank only what stands in front of its first solid character is left
out. -/
theorem trimBlank_append_cons {c : Char} (solid : isBlank c = false)
    (ends : ∀ d ∈ (c :: after).getLast?, isBlank d = false) :
    trimBlank (before ++ c :: after) = skipBlank before ++ c :: after := by
  have front : skipBlank (before ++ c :: after) = skipBlank before ++ c :: after :=
    dropWhile_append_cons solid
  obtain ⟨d, rest, reversed⟩ : ∃ d rest, (c :: after).reverse = d :: rest :=
    List.exists_cons_of_ne_nil (by simp)
  have last : (c :: after).getLast? = some d := by
    rw [← List.head?_reverse, reversed, List.head?_cons]
  rw [trimBlank, front, List.reverse_append, reversed, List.cons_append,
    skipBlank_cons_of_not_blank (ends d last), ← List.cons_append, ← reversed, ← List.reverse_append,
    List.reverse_reverse]

/-! ### Lines -/

theorem cutLine_append (unbroken : '\n' ∉ line) :
    cutLine (line ++ '\n' :: after) = (line, some after) := by
  induction line with
  | nil => rfl
  | cons c rest ih =>
    obtain ⟨other, inside⟩ := not_or.mp (mt List.mem_cons.mpr unbroken)
    rw [List.cons_append, cutLine, if_neg (Ne.symm other), ih inside]

theorem textLines_of_cutLine (cut : cutLine text = (line, some after)) :
    textLines text = dropReturn line :: textLines after := by
  rw [textLines]
  split
  · rename_i same
    cases cut.symm.trans same
    rfl
  · rename_i same
    cases cut.symm.trans same

/-- Lines that are printed one below the other are read back, but for carriage returns at their ends. -/
theorem textLines_flatMap {lines : List (List Char)} (unbroken : ∀ line ∈ lines, '\n' ∉ line) :
    textLines (lines.flatMap (· ++ ['\n'])) = lines.map dropReturn := by
  induction lines with
  | nil =>
    rw [List.flatMap_nil, textLines]
    rfl
  | cons line rest ih =>
    obtain ⟨here, later⟩ := List.forall_mem_cons.mp unbroken
    rw [List.flatMap_cons, List.append_assoc, List.singleton_append,
      textLines_of_cutLine (cutLine_append here), List.map_cons, ih later]

/-- A line reports an error if one of two texts stands in it. -/
theorem reportsError_iff {text : List Char} :
    reportsError text = true ↔ "): error ".toList <:+: text ∨ "error CS".toList <:+: text := by
  rw [reportsError, Bool.or_eq_true, occursIn_iff, occursIn_iff]

theorem dropReturn_isPrefix (text : List Char) : dropReturn text <+: text := by
  rw [dropReturn]
  split
  · exact List.dropLast_prefix text
  · exact List.prefix_refl text

end Parts

/-! ### Lines that report errors -/

/-- A line in which a compiler reports an error. -/
structure ErrorLine where
  file : String
  line : Nat
  column : Nat
  message : String

namespace ErrorLine

/-- The text of the line. -/
def text (e : ErrorLine) : List Char :=
  e.file.toList ++ '(' :: (natDigits e.line ++ ',' :: natDigits e.column) ++
    ')' :: ':' :: ' ' :: e.message.toList

/-- What a compiler puts into such a line: no line breaks, a number that can be read, and a message that
calls itself an error and has no blanks around it. -/
structure Sound (e : ErrorLine) : Prop where
  file : '\n' ∉ e.file.toList
  line : e.line < lineBound
  message : '\n' ∉ e.message.toList
  error : "error ".toList <+: e.message.toList
  trimmed : trimBlank e.message.toList = e.message.toList

/-- The file name has no opening parenthesis, or else goes on behind its first one with the number of
the line and without a closing one. -/
def Located (e : ErrorLine) : Prop :=
  ∀ before behind, e.file.toList = before ++ '(' :: behind → '(' ∉ before →
    ')' ∉ behind ∧ leadingLine? behind = some e.line

/-- What the line says. -/
def diagnostic (e : ErrorLine) : Diagnostic := ⟨e.message, some e.line⟩

variable {e : ErrorLine}

theorem Sound.message_cons (sound : e.Sound) : ∃ rest, e.message.toList = 'e' :: rest := by
  obtain ⟨rest, whole⟩ := sound.error
  exact ⟨_, whole.symm⟩

/-- The message ends with no blank. -/
theorem Sound.ends (sound : e.Sound) : ∀ d ∈ e.message.toList.getLast?, isBlank d = false := by
  rw [← sound.trimmed]
  exact getLast?_trimBlank _

theorem leadingLine?_natDigits {n : Nat} (fits : n < lineBound) (after : List Char) :
    leadingLine? (natDigits n ++ ',' :: after) = some n := by
  have digits : (natDigits n).takeWhile Char.isDigit = natDigits n :=
    List.takeWhile_eq_self_iff.mpr fun c member =>
      Nat.isDigit_of_mem_toDigits (by decide) (by decide) member
  have some_ : (natDigits n).isEmpty = false := List.isEmpty_eq_false_iff.mpr Nat.toDigits_ne_nil
  rw [leadingLine?, takeWhile_append_cons (by decide), digits]
  simp [some_, digitsValue_natDigits, fits]

theorem leadingLine?_append {behind after : List Char} :
    leadingLine? (behind ++ '(' :: after) = leadingLine? behind := by
  rw [leadingLine?, leadingLine?, takeWhile_append_cons (by decide)]

theorem no_closing_in_place (e : ErrorLine) :
    ')' ∉ natDigits e.line ++ ',' :: natDigits e.column := by
  have digits : ∀ n, ')' ∉ natDigits n := fun n member =>
    absurd (isDecimalDigit_natDigits member) (by decide)
  simp [digits]

/-- The message is found behind the parentheses. -/
theorem Sound.message_read (sound : e.Sound) :
    trimBlank ((':' :: ' ' :: e.message.toList).dropWhile (· == ':')) = e.message.toList := by
  obtain ⟨rest, starts⟩ := sound.message_cons
  have ends := sound.ends
  rw [starts] at ends ⊢
  have blank : skipBlank [' '] = [] := by decide
  have trimmed := @trimBlank_append_cons [' '] _ _ (by decide) ends
  rw [blank] at trimmed
  exact trimmed

theorem location?_append {before place after : List Char} (first : '(' ∉ before)
    (closed : ')' ∉ place) : location? (before ++ '(' :: (place ++ ')' :: after)) =
      (leadingLine? place).map fun number => (number, after) := by
  rw [location?, cutAt?_append first]
  change (cutAt? ')' (place ++ ')' :: after)).bind _ = _
  rw [cutAt?_append closed]
  cases h : leadingLine? place <;> simp [h]

/-- The name of the file is cut at its first opening parenthesis. -/
theorem located_iff {before behind : List Char} (file : e.file.toList = before ++ '(' :: behind)
    (first : '(' ∉ before) : e.Located ↔ ')' ∉ behind ∧ leadingLine? behind = some e.line := by
  constructor
  · exact fun located => located before behind file first
  · intro fits before' behind' file' first'
    have cut : some (before', behind') = some (before, behind) := by
      rw [← cutAt?_append first', ← cutAt?_append first, ← file', ← file]
    cases cut
    exact fits

theorem located_of_not_mem (plain : '(' ∉ e.file.toList) : e.Located := by
  intro before behind file _
  exact absurd (by simp [file]) plain

/-- A text that holds more than a message in front of it is another message. -/
theorem Sound.other_message (sound : e.Sound) (outer : List Char) (number : Nat) :
    (⟨String.ofList (trimBlank ((outer ++ '(' :: (natDigits e.line ++ ',' :: natDigits e.column ++
      ')' :: ':' :: ' ' :: e.message.toList)).dropWhile (· == ':'))), some number⟩ : Diagnostic) ≠
        e.diagnostic := by
  intro same
  have text := congrArg String.toList (congrArg Diagnostic.message same)
  obtain ⟨rest, starts⟩ := sound.message_cons
  have last : ('(' :: (natDigits e.line ++ ',' :: natDigits e.column ++
      ')' :: ':' :: ' ' :: e.message.toList)).getLast? = e.message.toList.getLast? := by
    rw [starts]
    simp [List.getLast?_cons, List.getLast?_append]
  have ends := sound.ends
  rw [← last] at ends
  rw [String.toList_ofList, dropWhile_append_cons (by decide),
    trimBlank_append_cons (by decide) ends] at text
  have shorter := congrArg List.length text
  simp only [diagnostic, List.length_append, List.length_cons] at shorter
  omega

/-- The line is read as what it says exactly if the file name does not mislead. -/
theorem Sound.ofLine_iff (sound : e.Sound) : Diagnostic.ofLine e.text = e.diagnostic ↔ e.Located := by
  have read : ∀ number, (⟨String.ofList (trimBlank ((':' :: ' ' :: e.message.toList).dropWhile
      (· == ':'))), some number⟩ : Diagnostic) = ⟨e.message, some number⟩ := by
    intro number
    rw [sound.message_read, String.ofList_toList]
  by_cases misled : '(' ∈ e.file.toList
  · obtain ⟨before, behind, file, first⟩ := List.eq_append_cons_of_mem misled
    rw [located_iff file first]
    by_cases closed : ')' ∈ behind
    · obtain ⟨inner, outer, rfl, free⟩ := List.eq_append_cons_of_mem closed
      have text : e.text = before ++ '(' :: (inner ++ ')' :: (outer ++ '(' ::
          (natDigits e.line ++ ',' :: natDigits e.column ++
            ')' :: ':' :: ' ' :: e.message.toList))) := by simp [ErrorLine.text, file]
      refine iff_of_false ?_ fun fits => fits.1 closed
      rw [Diagnostic.ofLine, text, location?_append first free]
      cases leadingLine? inner with
      | none => exact fun same => nomatch congrArg Diagnostic.line same
      | some number => exact sound.other_message outer number
    · have free : ')' ∉ behind ++ '(' :: (natDigits e.line ++ ',' :: natDigits e.column) := by
        have place := e.no_closing_in_place
        simp_all
      have text : e.text = before ++ '(' :: ((behind ++ '(' :: (natDigits e.line ++ ',' ::
          natDigits e.column)) ++ ')' :: ':' :: ' ' :: e.message.toList) := by
        simp [ErrorLine.text, file]
      rw [Diagnostic.ofLine, text, location?_append first free, leadingLine?_append,
        and_iff_right closed]
      cases leadingLine? behind with
      | none => exact iff_of_false (fun same => nomatch congrArg Diagnostic.line same) nofun
      | some number =>
        simp only [Option.map_some, read, diagnostic, Diagnostic.mk.injEq, true_and]
  · have text : e.text = e.file.toList ++ '(' :: ((natDigits e.line ++ ',' :: natDigits e.column) ++
        ')' :: ':' :: ' ' :: e.message.toList) := by simp [ErrorLine.text]
    refine iff_of_true ?_ (located_of_not_mem misled)
    rw [Diagnostic.ofLine, text, location?_append misled e.no_closing_in_place,
      leadingLine?_natDigits sound.line]
    exact read e.line

theorem Sound.unbroken (sound : e.Sound) : '\n' ∉ e.text := by
  have digits : ∀ n, '\n' ∉ natDigits n := fun n member =>
    absurd (isDecimalDigit_natDigits member) (by decide)
  simp [text, digits, sound.file, sound.message]

/-- The line ends with no carriage return, and is seen to report an error. -/
theorem Sound.seen (sound : e.Sound) : dropReturn e.text = e.text ∧ reportsError e.text = true := by
  constructor
  · obtain ⟨rest, starts⟩ := sound.message_cons
    have last : e.text.getLast? = e.message.toList.getLast? := by
      simp [text, starts, List.getLast?_cons, List.getLast?_append]
    have solid : ¬ e.text.getLast? = some '\r' := by
      rw [last]
      exact fun carriage => absurd (sound.ends _ carriage) (by decide)
    rw [dropReturn, if_neg solid]
  · obtain ⟨rest, whole⟩ := sound.error
    refine reportsError_iff.mpr (.inl ⟨e.file.toList ++ '(' :: (natDigits e.line ++ ',' ::
      natDigits e.column), rest, ?_⟩)
    rw [text, ← whole]
    simp

end ErrorLine

/-! ### Whole outputs -/

/-- A line of the output of a compiler. -/
inductive OutputLine where
  | error (e : ErrorLine)
  /-- A line that reports no error. -/
  | other (text : List Char)

namespace OutputLine

/-- The text of the line. -/
def text : OutputLine → List Char
  | .error e => e.text
  | .other text => text

/-- An error is sound, and other lines do not look like one. -/
def Sound : OutputLine → Prop
  | .error e => e.Sound
  | .other text => '\n' ∉ text ∧ ¬ "): error ".toList <:+: text ∧ ¬ "error CS".toList <:+: text

/-- The error that the line reports. -/
def error? : OutputLine → Option ErrorLine
  | .error e => some e
  | .other _ => none

/-- Lines that are printed one below the other. -/
def print (lines : List OutputLine) : String :=
  String.ofList (lines.flatMap fun line => line.text ++ ['\n'])

variable {line : OutputLine} {lines : List OutputLine}

theorem Sound.unbroken (sound : line.Sound) : '\n' ∉ line.text := by
  cases line with
  | other text => exact sound.1
  | error e => exact ErrorLine.Sound.unbroken sound

/-- The lines that are picked out of an output are those that were printed for errors. -/
theorem picked (sound : ∀ line ∈ lines, line.Sound) :
    (textLines (print lines).toList).filter reportsError =
      (lines.filterMap error?).map ErrorLine.text := by
  have printed : (print lines).toList = (lines.map text).flatMap (· ++ ['\n']) := by
    rw [print, String.toList_ofList, List.flatMap_map]
  have unbroken : ∀ chars ∈ lines.map text, '\n' ∉ chars := by
    intro chars member
    obtain ⟨line, inside, rfl⟩ := List.mem_map.mp member
    exact (sound line inside).unbroken
  rw [printed, textLines_flatMap unbroken]
  clear printed unbroken
  induction lines with
  | nil => rfl
  | cons line rest ih =>
    obtain ⟨here, later⟩ := List.forall_mem_cons.mp sound
    rw [List.map_cons, List.map_cons, List.filter_cons, ih later]
    cases line with
    | error e =>
      obtain ⟨same, seen⟩ := ErrorLine.Sound.seen here
      rw [text, same, seen, if_pos rfl]
      rfl
    | other text =>
      have unseen : ¬ reportsError (dropReturn text) = true := by
        rw [reportsError_iff]
        rintro (error | error)
        · exact here.2.1 (error.trans (dropReturn_isPrefix text).isInfix)
        · exact here.2.2 (error.trans (dropReturn_isPrefix text).isInfix)
      rw [OutputLine.text, if_neg unseen]
      rfl

/-- What is printed is read back exactly if no file name misleads. -/
theorem parse_print_iff (sound : ∀ line ∈ lines, line.Sound) :
    parseDiagnostics (print lines) = (lines.filterMap error?).map ErrorLine.diagnostic ↔
      ∀ e, .error e ∈ lines → e.Located := by
  have errors : ∀ e, e ∈ lines.filterMap error? ↔ .error e ∈ lines := by
    intro e
    rw [List.mem_filterMap]
    constructor
    · rintro ⟨line, member, reported⟩
      cases line with
      | error e' =>
        cases reported
        exact member
      | other text => exact nomatch reported
    · exact fun member => ⟨_, member, rfl⟩
  have each : ∀ e, .error e ∈ lines → e.Sound := fun e member => sound _ member
  rw [parseDiagnostics, picked sound, List.map_map, List.map_inj_left]
  refine forall_congr' fun e => ?_
  rw [errors]
  exact imp_congr_right fun member => (each e member).ofLine_iff

end OutputLine

/-! ### Places by their bytes -/

/-- The byte at which a character first stands in a text. -/
def byteIndex? (mark : Char) : List Char → Option Nat
  | [] => none
  | c :: rest => if c = mark then some 0 else (byteIndex? mark rest).map (c.utf8Size + ·)

/-- The text from a byte on. There is none from a byte within a character or behind the end. -/
def sliceFrom? : List Char → Nat → Option (List Char)
  | [], byte => if byte = 0 then some [] else none
  | c :: rest, byte =>
    if byte = 0 then some (c :: rest)
    else if c.utf8Size ≤ byte then sliceFrom? rest (byte - c.utf8Size) else none

/-- The text up to a byte. There is none up to a byte within a character or behind the end. -/
def sliceTo? : List Char → Nat → Option (List Char)
  | [], byte => if byte = 0 then some [] else none
  | c :: rest, byte =>
    if byte = 0 then some []
    else if c.utf8Size ≤ byte then (sliceTo? rest (byte - c.utf8Size)).map (c :: ·) else none

/-- The line number in the first parentheses and the text behind them, found by bytes. The outer option
is empty if a text is cut where it cannot be. -/
def locationByBytes? (line : List Char) : Option (Option (Nat × List Char)) :=
  match byteIndex? '(' line with
  | none => some none
  | some opening => do
    let inside ← sliceFrom? line (opening + 1)
    match byteIndex? ')' inside with
    | none => return none
    | some closing =>
      let position ← sliceTo? inside closing
      match leadingLine? position with
      | none => return none
      | some number =>
        let after ← sliceFrom? inside (closing + 1)
        return some (number, after)

/-- The diagnostics in the output of a compiler, found by bytes. -/
def diagnosticsByBytes? (output : String) : Option (List Diagnostic) :=
  ((textLines output.toList).filter reportsError).mapM fun line => do
    match ← locationByBytes? line with
    | some (number, after) =>
      return ⟨String.ofList (trimBlank (after.dropWhile (· == ':'))), some number⟩
    | none => return ⟨String.ofList (trimBlank line), none⟩

section Bytes

variable {mark : Char} {text before after : List Char}

theorem sliceFrom?_byteLength : sliceFrom? (before ++ after) (byteLength before) = some after := by
  induction before with
  | nil => cases after <;> rfl
  | cons c rest ih =>
    have size := c.utf8Size_pos
    rw [byteLength, List.cons_append, sliceFrom?, if_neg (by omega), if_pos (by omega),
      Nat.add_sub_cancel_left, ih]

theorem sliceTo?_byteLength : sliceTo? (before ++ after) (byteLength before) = some before := by
  induction before with
  | nil => cases after <;> rfl
  | cons c rest ih =>
    have size := c.utf8Size_pos
    rw [byteLength, List.cons_append, sliceTo?, if_neg (by omega), if_pos (by omega),
      Nat.add_sub_cancel_left, ih, Option.map_some]

/-- A character of one byte ends where the next byte is. -/
theorem sliceFrom?_behind (single : mark.utf8Size = 1) :
    sliceFrom? (before ++ mark :: after) (byteLength before + 1) = some after := by
  have length : byteLength (before ++ [mark]) = byteLength before + 1 := by
    rw [byteLength_append, byteLength, byteLength, single]
  rw [← length, List.append_cons]
  exact sliceFrom?_byteLength

theorem byteIndex?_eq (mark : Char) (text : List Char) :
    byteIndex? mark text = (cutAt? mark text).map fun parts => byteLength parts.1 := by
  induction text with
  | nil => rfl
  | cons c rest ih =>
    rw [byteIndex?, cutAt?]
    split
    · rfl
    · rw [ih, Option.map_map, Option.map_map]
      rfl

theorem eq_of_cutAt? (cut : cutAt? mark text = some (before, after)) :
    text = before ++ mark :: after := by
  induction text generalizing before with
  | nil => exact nomatch cut
  | cons c rest ih =>
    rw [cutAt?] at cut
    split at cut
    · rename_i same
      cases cut
      rw [same, List.nil_append]
    · obtain ⟨⟨before', after'⟩, inside, same⟩ := Option.map_eq_some_iff.mp cut
      cases same
      rw [ih inside, List.cons_append]

/-- No text is cut within a character, and the location is that of the characters. -/
theorem locationByBytes?_eq (line : List Char) : locationByBytes? line = some (location? line) := by
  rw [locationByBytes?, location?, byteIndex?_eq]
  cases first : cutAt? '(' line with
  | none => rfl
  | some parts =>
    obtain ⟨before, inside⟩ := parts
    have behind : sliceFrom? line (byteLength before + 1) = some inside := by
      rw [eq_of_cutAt? first]
      exact sliceFrom?_behind (by decide)
    simp only [Option.map_some, behind, Option.bind_eq_bind, Option.bind_some, byteIndex?_eq]
    cases next : cutAt? ')' inside with
    | none => rfl
    | some parts =>
      obtain ⟨position, after⟩ := parts
      have upTo : sliceTo? inside (byteLength position) = some position := by
        rw [eq_of_cutAt? next]
        exact sliceTo?_byteLength
      have rest : sliceFrom? inside (byteLength position + 1) = some after := by
        rw [eq_of_cutAt? next]
        exact sliceFrom?_behind (by decide)
      simp only [Option.map_some, upTo, rest, Option.bind_some]
      cases leadingLine? position <;> rfl

theorem diagnosticsByBytes?_eq (output : String) :
    diagnosticsByBytes? output = some (parseDiagnostics output) := by
  have each : ∀ line, (do
      match ← locationByBytes? line with
      | some (number, after) =>
        return ⟨String.ofList (trimBlank (after.dropWhile (· == ':'))), some number⟩
      | none => return ⟨String.ofList (trimBlank line), none⟩) = some (Diagnostic.ofLine line) := by
    intro line
    rw [locationByBytes?_eq, Diagnostic.ofLine]
    cases location? line <;> rfl
  rw [diagnosticsByBytes?, parseDiagnostics]
  simp only [each]
  exact List.mapM_pure

end Bytes

namespace OutputLine

variable {lines : List OutputLine}

/-- The output of a compiler is read to its end, and whatever it is no text is cut within a character.
From lines that report errors and any others, printed one below the other, the messages with their line
numbers are read back in order, exactly if no file name misleads: that is, if no file name has an opening
parenthesis, but for those that go on behind it with the number of the line. -/
theorem diagnostics_read_back (output : String) (sound : ∀ line ∈ lines, line.Sound) :
    diagnosticsByBytes? output = some (parseDiagnostics output) ∧
      (parseDiagnostics (print lines) = (lines.filterMap error?).map ErrorLine.diagnostic ↔
        ∀ e, .error e ∈ lines → e.Located) :=
  ⟨diagnosticsByBytes?_eq output, parse_print_iff sound⟩

/-- An error in a file, between lines that are none. -/
def missingSemicolon : List OutputLine :=
  [.other "Microsoft (R) Compiler".toList,
    .error ⟨"Assets/Player.cs", 12, 5, "error CS1002: ; expected"⟩,
    .other "Player.cs(20,9): warning CS0219: The variable is never used\r".toList,
    .other "Compilation failed: 1 error(s), 1 warnings".toList]

theorem diagnostics_read_back_missingSemicolon :
    (∀ line ∈ missingSemicolon, line.Sound) ∧
      (∀ e, .error e ∈ missingSemicolon → e.Located) ∧
      parseDiagnostics (print missingSemicolon) = [⟨"error CS1002: ; expected", some 12⟩] := by
  have sound : ∀ line ∈ missingSemicolon, line.Sound := by
    have other : ∀ text : List Char, '\n' ∉ text → reportsError text = false →
        (OutputLine.other text).Sound := by
      intro text unbroken silent
      refine ⟨unbroken, not_or.mp fun reported => ?_⟩
      exact absurd (reportsError_iff.mpr reported) (by simp [silent])
    have error : (⟨"Assets/Player.cs", 12, 5, "error CS1002: ; expected"⟩ : ErrorLine).Sound :=
      ⟨by decide, by decide, by decide, by decide, by decide⟩
    simp only [missingSemicolon, List.forall_mem_cons]
    exact ⟨other _ (by decide) (by decide), error, other _ (by decide) (by decide),
      other _ (by decide) (by decide), nofun⟩
  have located : ∀ e, .error e ∈ missingSemicolon → e.Located := by
    intro e member
    obtain rfl : e = ⟨"Assets/Player.cs", 12, 5, "error CS1002: ; expected"⟩ := by
      simpa [missingSemicolon] using member
    exact ErrorLine.located_of_not_mem (by decide)
  exact ⟨sound, located, (diagnostics_read_back (print missingSemicolon) sound).2.mpr located⟩

/-- The parentheses of a file name are taken for those around the line and the column. -/
theorem diagnostics_misread :
    let e : ErrorLine := ⟨"Player (1).cs", 12, 5, "error CS1002: ; expected"⟩
    e.Sound ∧ parseDiagnostics (print [.error e]) =
      [⟨".cs(12,5): error CS1002: ; expected", some 1⟩] := by
  intro e
  have sound : e.Sound := ⟨by decide, by decide, by decide, by decide, by decide⟩
  have all : ∀ line ∈ [OutputLine.error e], line.Sound := List.forall_mem_singleton.mpr sound
  refine ⟨sound, ?_⟩
  rw [parseDiagnostics, picked all]
  decide

end OutputLine

end NodeScript
