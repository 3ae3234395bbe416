import NodeScript.Document.Quoted

/-!
The numbers of stored documents. An integer may have a sign, be written in base two, eight, ten or
sixteen, have underscores among its digits, and name its width; a byte in quotes is an integer too.
A floating point number may have underscores behind digits and name its width. A number that names a
width is of no other width.
-/

namespace NodeScript

/-- A width that an integer may have. -/
structure IntegerWidth where
  signed : Bool
  bits : Nat
deriving DecidableEq, Repr, Inhabited

namespace IntegerWidth

/-- Eight bits without a sign. -/
def u8 : IntegerWidth := ⟨false, 8⟩

/-- Thirty-two bits without a sign. -/
def u32 : IntegerWidth := ⟨false, 32⟩

/-- Sixty-four bits without a sign. -/
def u64 : IntegerWidth := ⟨false, 64⟩

/-- Sixty-four bits with a sign. -/
def i64 : IntegerWidth := ⟨true, 64⟩

/-- The widths that an integer may name. -/
def all : List IntegerWidth :=
  [⟨true, 8⟩, ⟨true, 16⟩, ⟨true, 32⟩, i64, u8, ⟨false, 16⟩, u32, u64]

/-- The name behind an integer. -/
def name (width : IntegerWidth) : String :=
  (if width.signed then "i" else "u") ++ String.ofList (natDigits width.bits)

/-- What integers of the width are called. -/
def title (width : IntegerWidth) : String :=
  (if width.bits = 8 then "an " else "a ") ++ String.ofList (natDigits width.bits) ++ "-bit "
    ++ (if width.signed then "signed" else "unsigned") ++ " integer"

/-- The least integer of the width. -/
def least (width : IntegerWidth) : Int :=
  if width.signed then -(Nat.pow 2 (width.bits - 1) : Int) else 0

/-- The greatest integer of the width. -/
def greatest (width : IntegerWidth) : Int :=
  (Nat.pow 2 (if width.signed then width.bits - 1 else width.bits) : Int) - 1

/-- Whether an integer is of the width. -/
def holds (width : IntegerWidth) (n : Int) : Bool := width.least ≤ n && n ≤ width.greatest

end IntegerWidth

/-- Whether a character may stand among the digits of an integer. -/
def isIntegerChar (c : Char) : Bool := (hexValue? c).isSome || c == '_'

/-- The base that a numeral is marked with, if it is. -/
def markedBase? : List Char → Option Nat
  | '0' :: 'x' :: _ => some 16
  | '0' :: 'o' :: _ => some 8
  | '0' :: 'b' :: _ => some 2
  | _ => none

/-- The value of digits with a sign, behind those that have the value `read`; underscores are passed
over, and what follows the digits is `rest`. -/
def signedDigits (width : IntegerWidth) (negative : Bool) (base : Nat) (rest : List Char) :
    (digits : List Char) → (read : Int) → Except PlacedFault (Int × List Char)
  | [], read => .ok (read, rest)
  | c :: digits, read =>
    if c = '_' then signedDigits width negative base rest digits read
    else
      let shifted := base * read
      if !width.holds shifted then .error ⟨.outOfBounds, rest⟩
      else
        match hexValue? c with
        | none => .error ⟨.badEscape .notHexadecimal, c :: digits ++ rest⟩
        | some digit =>
          let value := if negative then shifted - digit else shifted + digit
          if base ≤ digit then .error ⟨.badDigit c base, c :: digits ++ rest⟩
          else if !width.holds value then .error ⟨.outOfBounds, rest⟩
          else signedDigits width negative base rest digits value

/-- What an integer has to be. -/
inductive IntegerGoal where
  | ofWidth (width : IntegerWidth)
  | any
deriving DecidableEq, Repr

/-- The width that an integer without a name of its own is read with. -/
def IntegerGoal.width (goal : IntegerGoal) (negative : Bool) : IntegerWidth :=
  match goal with
  | .ofWidth width => width
  | .any => if negative then .i64 else .u64

/-- A width that a floating point number may have. -/
inductive FloatWidth where
  | single
  | double
deriving DecidableEq, Repr

/-- The name behind a floating point number. -/
def FloatWidth.name : FloatWidth → String
  | .single => "f32"
  | .double => "f64"

/-- What floating point numbers of the width are called. -/
def FloatWidth.title : FloatWidth → String
  | .single => "a 32-bit floating point number"
  | .double => "a 64-bit floating point number"

/-- A floating point number as it is written: a word for one that no numeral denotes, or a numeral.
-/
inductive FloatText where
  | word (reading : Reading)
  | numeral (numeral : Numeral)
deriving DecidableEq, Repr

/-- The 32-bit number that is written. -/
def FloatText.toSingle : FloatText → Single
  | .word reading => .ofReading reading
  | .numeral n => .ofDecimal n.negative n.digits n.exponent

/-- The 64-bit number that is written. -/
def FloatText.toDouble : FloatText → Double
  | .word reading => .ofReading reading
  | .numeral n => .ofDecimal n.negative n.digits n.exponent

/-- The words for the floating point numbers that no numeral denotes. -/
def floatWords : List (String × Reading) := [
  ("inf", .infinite false), ("+inf", .infinite false), ("-inf", .infinite true),
  ("NaN", .nan false), ("+NaN", .nan false), ("-NaN", .nan true)]

/-- Whether a character may stand in a floating point number. -/
def isFloatChar (c : Char) : Bool :=
  isDecimalDigit c || c == 'e' || c == 'E' || c == '.' || c == '+' || c == '-' || c == '_'

/-- Leaves out underscores, each of which has to stand behind a digit or an exponent mark. What
follows the characters is `rest`. -/
def dropUnderscores (rest : List Char) (allowed : Bool) :
    List Char → Except PlacedFault (List Char)
  | [] => .ok []
  | c :: more =>
    if c = '_' then
      if allowed then dropUnderscores rest true more
      else .error ⟨.misplacedUnderscore, c :: more ++ rest⟩
    else do
      let next := if c = '.' then false
        else if isDecimalDigit c || c = 'e' || c = 'E' then true else allowed
      let others ← dropUnderscores rest next more
      return c :: others

namespace Scan

/-- Takes the digits of an integer from behind its sign. -/
def integerDigits (width : IntegerWidth) (negative : Bool) : Scan Int := do
  let base ← match markedBase? (← get) with
    | some base =>
      modify (List.drop 2)
      pure base
    | none => pure 10
  let text ← get
  let digits := text.takeWhile isIntegerChar
  if digits.isEmpty then stop .expectedInteger
  if digits.head? = some '_' then stop .leadingUnderscore
  fun _ => signedDigits width negative base (text.dropWhile isIntegerChar) digits 0

/-- The width that the text goes on with, and the text behind its name. -/
def widthAt? (text : List Char) : Option (IntegerWidth × List Char) :=
  IntegerWidth.all.findSome? fun width =>
    match width.name.toList.isPrefixOf? text with
    | some rest => if wordEnds rest then some (width, rest) else none
    | none => none

/-- Checks an integer that names its width. `start` is the text from its first character on. -/
def checkWidth (goal : IntegerGoal) (width : IntegerWidth) (start : List Char) (value : Int) :
    Scan Int := fun rest =>
  match goal with
  | .any => .ok (value, rest)
  | .ofWidth wanted =>
    if wanted = width then .ok (value, rest)
    else
      let written := String.ofList (start.take (start.length - rest.length))
      .error ⟨.otherNumber wanted.title written, rest⟩

/-- Takes the digits of an integer that names its width, with the name, behind which `behind`
follows. -/
def namedInteger (width : IntegerWidth) (negative : Bool) (behind : List Char) : Scan Int :=
  fun text =>
    match integerDigits width negative text with
    | .ok (value, _) => .ok (value, behind)
    | .error ⟨.leadingUnderscore, rest⟩ => .error ⟨.leadingUnderscore, rest⟩
    | .error ⟨.badDigit digit base, rest⟩ => .error ⟨.badDigit digit base, rest⟩
    | .error fault => .error ⟨fault.cause, behind⟩

/-- Takes an integer. -/
def integer (goal : IntegerGoal) : Scan Int := do
  let start ← get
  let first ← peek
  if ← take? ['b', '\''] then
    let byte ← quotedByte
    checkWidth goal .u8 start byte.toNat
  else
    let negative := first = '-'
    if first = '-' || first = '+' then
      let _ ← next
    let text ← get
    match widthAt? (text.dropWhile isIntegerChar) with
    | some (width, behind) =>
      let value ← namedInteger width negative behind
      checkWidth goal width start value
    | none => integerDigits (goal.width negative) negative

/-- Takes a word for a floating point number, with the name of its width if there is one. -/
def floatWord? : Scan (Option (Reading × Option FloatWidth)) := fun text =>
  let found := floatWords.findSome? fun (word, reading) =>
    match word.toList.isPrefixOf? text with
    | none => none
    | some rest =>
      if wordEnds rest then some ((reading, none), rest)
      else [FloatWidth.single, .double].findSome? fun width =>
        match width.name.toList.isPrefixOf? rest with
        | some behind => if wordEnds behind then some ((reading, some width), behind) else none
        | none => none
  match found with
  | some (read, rest) => .ok (some read, rest)
  | none => .ok (none, text)

/-- Takes the name of a width of floating point numbers, if there is one. -/
def floatWidth? : Scan (Option FloatWidth) := do
  if ← word? FloatWidth.single.name then return some .single
  else if ← word? FloatWidth.double.name then return some .double
  else return none

/-- Takes a floating point number, with the name of its width if there is one. -/
def float : Scan (FloatText × Option FloatWidth) := do
  match ← floatWord? with
  | some (reading, width) => return (.word reading, width)
  | none =>
    let text ← get
    let body := text.takeWhile isFloatChar
    let rest := text.dropWhile isFloatChar
    if body.isEmpty then stop .expectedFloat
    if body.head? = some '_' then stop .leadingUnderscore
    let digits ← liftM (dropUnderscores rest false body)
    match readNumeral digits with
    | none => stop .expectedFloat
    | some numeral =>
      set rest
      let width ← floatWidth?
      return (.numeral numeral, width)

/-- Takes a floating point number that is of a width or names none. -/
def floatOfWidth (wanted : FloatWidth) : Scan FloatText := do
  let start ← get
  let (value, width) ← float
  let rest ← get
  if width.all (· = wanted) then return value
  else stop (.otherNumber wanted.title (String.ofList (start.take (start.length - rest.length))))

/-- Whether a text starts with a number that is no integer: behind the sign, more characters of
floating point numbers follow than of integers. -/
def startsFloat (text : List Char) : Bool :=
  let body := match text with
    | c :: rest => if c = '+' || c = '-' then rest else text
    | [] => []
  (body.takeWhile isIntegerChar).length < (body.takeWhile isFloatChar).length

/-- Takes a number of any kind. An integer that cannot be read may be a floating point number, which
has to reach as far. -/
def anyNumber : Scan Unit := fun text =>
  if startsFloat text then
    match float text with
    | .ok (_, rest) => .ok ((), rest)
    | .error fault => .error fault
  else
    match integer .any text with
    | .ok (_, rest) => .ok ((), rest)
    | .error fault =>
      match float text with
      | .ok (_, rest) => if rest.length ≤ fault.rest.length then .ok ((), rest) else .error fault
      | .error _ => .error fault

end Scan

end NodeScript
