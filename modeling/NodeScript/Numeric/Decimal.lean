import NodeScript.Numeric.Binary
import NodeScript.Text.Alphanumeric

/-!
Decimal text of numbers, written and read. How a number is laid out is a `NumberStyle`; which digits
it has is decided in `NodeScript.Numeric.Shortest`.
-/

namespace NodeScript

/-- The decimal digits of a natural. -/
def natDigits (n : Nat) : List Char := Nat.toDigits 10 n

/-- The decimal text of an integer. -/
def intText (n : Int) : String :=
  if n < 0 then "-" ++ String.ofList (natDigits n.natAbs) else String.ofList (natDigits n.natAbs)

/-- How a number is laid out. -/
structure NumberStyle where
  /-- Whole numbers end in `.0`. -/
  wholePoint : Bool
  /-- Numbers below the ten-thousandth or from ten to the sixteenth on are written with an
  exponent. -/
  scientific : Bool
  /-- A number that is none keeps its sign. -/
  signedNan : Bool
deriving DecidableEq, Repr

/-- Plain numbers: all digits in their places and nothing else. -/
def NumberStyle.plain : NumberStyle := ⟨false, false, false⟩

/-- Numbers in literals and stored documents, which show that they are not whole numbers. -/
def NumberStyle.stored : NumberStyle := ⟨true, false, true⟩

/-- Numbers in the labels of constants. -/
def NumberStyle.label : NumberStyle := ⟨true, true, false⟩

/-- The digits with a point at its place. -/
def Decimal.positional (d : Decimal) (wholePoint : Bool) : List Char :=
  let digits := natDigits d.digits
  if 0 ≤ d.exponent then
    let whole := digits ++ List.replicate d.exponent.toNat '0'
    if wholePoint then whole ++ ['.', '0'] else whole
  else
    let places := d.exponent.natAbs
    if places < digits.length then
      digits.take (digits.length - places) ++ '.' :: digits.drop (digits.length - places)
    else '0' :: '.' :: List.replicate (places - digits.length) '0' ++ digits

/-- One digit before the point, and the power of ten. -/
def Decimal.scientific (d : Decimal) : List Char :=
  let digits := natDigits d.digits
  let power := d.exponent + digits.length - 1
  let mantissa := match digits with
    | first :: second :: rest => first :: '.' :: second :: rest
    | short => short
  mantissa ++ 'e' :: (intText power).toList

/-- The text of a decimal that is not negative. -/
def NumberStyle.layout (style : NumberStyle) (d : Decimal) : List Char :=
  let power := d.exponent + (natDigits d.digits).length - 1
  if style.scientific && d.digits ≠ 0 && (power < -4 || 16 ≤ power) then d.scientific
  else if d.digits = 0 then if style.wholePoint then ['0', '.', '0'] else ['0']
  else d.positional style.wholePoint

/-- The text of a number. -/
def NumberStyle.render (style : NumberStyle) : Reading → String
  | .nan negative => if negative && style.signedNan then "-NaN" else "NaN"
  | .infinite negative => if negative then "-inf" else "inf"
  | .finite negative size =>
    let text := String.ofList (style.layout size.shortest)
    if negative then "-" ++ text else text

/-- The value of a digit character, `0` for anything else. -/
def digitValue (c : Char) : Nat := c.toNat - '0'.toNat

/-- The natural that a list of digits stands for. -/
def digitsValue (digits : List Char) : Nat :=
  digits.foldl (fun n c => 10 * n + digitValue c) 0

/-- A numeral taken apart: sign, all digits, and the power of ten of the last one. -/
structure Numeral where
  negative : Bool
  digits : Nat
  exponent : Int
deriving DecidableEq, Repr

/-- The sign in front of a numeral, and the rest. -/
def splitSign : List Char → Bool × List Char
  | '-' :: rest => (true, rest)
  | '+' :: rest => (false, rest)
  | text => (false, text)

/-- Reads an exponent: an optional sign and at least one digit, and nothing after them. -/
def readExponent (text : List Char) : Option Int :=
  let (negative, rest) := splitSign text
  if rest.isEmpty || !rest.all isDecimalDigit then none
  else
    let size : Int := digitsValue rest
    some (if negative then -size else size)

/-- Reads a numeral: digits with an optional point among, before or after them, and an optional
exponent. -/
def readNumeral (text : List Char) : Option Numeral :=
  let (negative, body) := splitSign text
  let whole := body.takeWhile isDecimalDigit
  let afterWhole := body.dropWhile isDecimalDigit
  let (fraction, rest) := match afterWhole with
    | '.' :: more => (more.takeWhile isDecimalDigit, more.dropWhile isDecimalDigit)
    | other => ([], other)
  if whole.isEmpty && fraction.isEmpty then none
  else
    let numeral := fun (power : Int) =>
      Numeral.mk negative (digitsValue (whole ++ fraction)) (power - fraction.length)
    match rest with
    | [] => some (numeral 0)
    | c :: more => if c = 'e' || c = 'E' then (readExponent more).map numeral else none

/-- Lower-cases the letters `A` to `Z`. -/
def lowerAscii (text : List Char) : List Char := text.map Char.toLower

/-- Reads a floating point number: a numeral, an infinity or no number, the words in any case. -/
def readFloat (format : BinaryFormat) (text : List Char) : Option Nat :=
  let (negative, body) := splitSign text
  let word := String.ofList (lowerAscii body)
  if word = "inf" || word = "infinity" then some (format.withSign negative format.infinity)
  else if word = "nan" then some (format.ofReading (.nan negative))
  else (readNumeral text).map fun n =>
    format.withSign n.negative (format.ofDecimal n.digits n.exponent)

/-- Reads a 32-bit number. -/
def Single.ofText? (text : String) : Option Single :=
  (readFloat .single text.toList).map fun bits => ⟨UInt32.ofNat bits⟩

/-- Reads a 64-bit number. -/
def Double.ofText? (text : String) : Option Double :=
  (readFloat .double text.toList).map fun bits => ⟨UInt64.ofNat bits⟩

/-- The plain text of a number. -/
def Single.text (x : Single) : String := NumberStyle.plain.render x.read

instance : ToString Single := ⟨Single.text⟩

/-- The plain text of a number. -/
def Double.text (x : Double) : String := NumberStyle.plain.render x.read

instance : ToString Double := ⟨Double.text⟩

end NodeScript
