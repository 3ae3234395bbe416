/-!
Binary floating point values of a given width, read and written exactly. A value is kept as its bit
pattern; `BinaryFormat.read` says what the pattern means and `BinaryFormat.nearest` gives the
pattern nearest to a quotient. All arithmetic is on naturals and integers.

The shortest decimal of a binary value. The reals that round to a value form an interval; of the
decimals in it the one with the fewest digits is chosen, of two the nearer, and of two equally near
the larger.
-/

namespace NodeScript

/-! ### Binary values -/

/-- The widths of the two fields of a binary floating point format. -/
structure BinaryFormat where
  fractionBits : Nat
  exponentBits : Nat
deriving DecidableEq, Repr

/-- The 32-bit format. -/
def BinaryFormat.single : BinaryFormat := ⟨23, 8⟩

/-- The 64-bit format. -/
def BinaryFormat.double : BinaryFormat := ⟨52, 11⟩

/-- The exponent of the last place of the smallest values. -/
def BinaryFormat.leastExponent (format : BinaryFormat) : Int :=
  2 - (Nat.pow 2 (format.exponentBits - 1) : Int) - format.fractionBits

/-- The pattern of positive infinity. -/
def BinaryFormat.infinity (format : BinaryFormat) : Nat :=
  (Nat.pow 2 format.exponentBits - 1) * Nat.pow 2 format.fractionBits

/-- The sign bit of a pattern. -/
def BinaryFormat.signBit (format : BinaryFormat) : Nat :=
  Nat.pow 2 (format.fractionBits + format.exponentBits)

/-- A finite magnitude `significand * 2 ^ exponent`. Below a power of two the gap to the next value
is half as wide as above it, which `narrowBelow` records. -/
structure Magnitude where
  significand : Nat
  exponent : Int
  narrowBelow : Bool
deriving DecidableEq, Repr

/-- What a bit pattern stands for. -/
inductive Reading where
  | nan (negative : Bool)
  | infinite (negative : Bool)
  | finite (negative : Bool) (size : Magnitude)
deriving DecidableEq, Repr

/-- The meaning of a bit pattern. -/
def BinaryFormat.read (format : BinaryFormat) (bits : Nat) : Reading :=
  let negative := format.signBit ≤ bits
  let body := bits % format.signBit
  let field := body / Nat.pow 2 format.fractionBits
  let fraction := body % Nat.pow 2 format.fractionBits
  if format.infinity < body then .nan negative
  else if body = format.infinity then .infinite negative
  else if field = 0 then .finite negative ⟨fraction, format.leastExponent, false⟩
  else .finite negative
    ⟨Nat.pow 2 format.fractionBits + fraction, format.leastExponent + field - 1,
      fraction = 0 && 1 < field⟩

/-- The pattern with a sign in front of it. -/
def BinaryFormat.withSign (format : BinaryFormat) (negative : Bool) (body : Nat) : Nat :=
  if negative then format.signBit + body else body

/-- The quotient of two naturals rounded to a natural, a half to the even neighbour. -/
def roundHalfEven (num den : Nat) : Nat :=
  let q := num / den
  let r := num % den
  if 2 * r < den then q
  else if den < 2 * r then q + 1
  else if q % 2 = 0 then q else q + 1

/-- A quotient of naturals times a power of two, as a numerator and a denominator. -/
def scaleByTwo (num den : Nat) (exponent : Int) : Nat × Nat :=
  (num * Nat.pow 2 exponent.toNat, den * Nat.pow 2 (-exponent).toNat)

/-- The pattern of the value nearest to `num / den`, a half going to the even significand. A
quotient beyond the largest finite value gives infinity. -/
def BinaryFormat.nearest (format : BinaryFormat) (num den : Nat) : Nat :=
  if num = 0 then 0
  else
    let guess : Int := (num.log2 : Int) - den.log2 - format.fractionBits - 1
    let low := max format.leastExponent guess
    -- The guess is at most one place too fine.
    let scaled := scaleByTwo num den (-low)
    let exponent :=
      if scaled.1 / scaled.2 < Nat.pow 2 (format.fractionBits + 1) then low else low + 1
    let parts := scaleByTwo num den (-exponent)
    let significand := roundHalfEven parts.1 parts.2
    min format.infinity
      ((exponent - format.leastExponent).toNat * Nat.pow 2 format.fractionBits + significand)

/-- The nearest pattern to `digits * 10 ^ exponent`. Exponents far outside the range of the format
are decided without computing the power. -/
def BinaryFormat.ofDecimal (format : BinaryFormat) (digits : Nat) (exponent : Int) : Nat :=
  if digits = 0 then 0
  else
    let decade : Int := (digits.log2 : Int) * 30103 / 100000 + exponent
    if 2000 < decade then format.infinity
    else if decade < -2000 then 0
    else format.nearest (digits * Nat.pow 10 exponent.toNat) (Nat.pow 10 (-exponent).toNat)

/-- A 32-bit floating point number. -/
structure Single where
  bits : UInt32
deriving DecidableEq, Repr, Inhabited

/-- A 64-bit floating point number. -/
structure Double where
  bits : UInt64
deriving DecidableEq, Repr, Inhabited

/-- What the number is. -/
def Single.read (x : Single) : Reading := BinaryFormat.single.read x.bits.toNat

/-- What the number is. -/
def Double.read (x : Double) : Reading := BinaryFormat.double.read x.bits.toNat

/-- The signed quotient of a finite magnitude. -/
def Magnitude.quotient (size : Magnitude) : Nat × Nat :=
  scaleByTwo size.significand 1 size.exponent

/-- A reading in a format, rounded to the nearest value there. -/
def BinaryFormat.ofReading (format : BinaryFormat) : Reading → Nat
  | .nan negative =>
    format.withSign negative (format.infinity + Nat.pow 2 (format.fractionBits - 1))
  | .infinite negative => format.withSign negative format.infinity
  | .finite negative size =>
    format.withSign negative (format.nearest size.quotient.1 size.quotient.2)

/-- The 32-bit number nearest to a reading. -/
def Single.ofReading (r : Reading) : Single :=
  ⟨UInt32.ofNat (BinaryFormat.single.ofReading r)⟩

/-- The 64-bit number nearest to a reading. -/
def Double.ofReading (r : Reading) : Double :=
  ⟨UInt64.ofNat (BinaryFormat.double.ofReading r)⟩

/-- The 32-bit number nearest to a 64-bit one. -/
def Double.toSingle (x : Double) : Single :=
  Single.ofReading x.read

/-- The 32-bit number nearest to a signed decimal. -/
def Single.ofDecimal (negative : Bool) (digits : Nat) (exponent : Int) : Single :=
  ⟨UInt32.ofNat (BinaryFormat.single.withSign negative
    (BinaryFormat.single.ofDecimal digits exponent))⟩

/-- The 64-bit number nearest to a signed decimal. -/
def Double.ofDecimal (negative : Bool) (digits : Nat) (exponent : Int) : Double :=
  ⟨UInt64.ofNat (BinaryFormat.double.withSign negative
    (BinaryFormat.double.ofDecimal digits exponent))⟩

/-- Positive zero. -/
def Single.zero : Single := ⟨0⟩

/-- Positive zero. -/
def Double.zero : Double := ⟨0⟩

/-- A finite magnitude with its sign, counted in units of `2 ^ unit`. -/
def Magnitude.units (size : Magnitude) (negative : Bool) (unit : Int) : Int :=
  let count : Int := (size.significand * Nat.pow 2 (size.exponent - unit).toNat : Nat)
  if negative then -count else count

/-- The sum of two readings, rounded once. Infinities of unlike sign have no sum, and a sum of zero
is negative only when both terms are. -/
def BinaryFormat.sum (format : BinaryFormat) : Reading → Reading → Nat
  | .nan s, _ => format.ofReading (.nan s)
  | _, .nan s => format.ofReading (.nan s)
  | .infinite s, .infinite t => format.ofReading (if s = t then .infinite s else .nan true)
  | .infinite s, .finite _ _ => format.ofReading (.infinite s)
  | .finite _ _, .infinite t => format.ofReading (.infinite t)
  | .finite s a, .finite t b =>
    let unit := min a.exponent b.exponent
    let total := a.units s unit + b.units t unit
    if total = 0 then format.withSign (s && t) 0
    else
      let parts := scaleByTwo total.natAbs 1 unit
      format.withSign (total < 0) (format.nearest parts.1 parts.2)

/-- The sum of two numbers, rounded to the nearest. -/
def Single.add (x y : Single) : Single :=
  ⟨UInt32.ofNat (BinaryFormat.single.sum x.read y.read)⟩

instance : Add Single := ⟨Single.add⟩

/-! ### Shortest decimals -/

/-- The number `digits * 10 ^ exponent`. -/
structure Decimal where
  digits : Nat
  exponent : Int
deriving DecidableEq, Repr

/-- Compares `a * 10 ^ i` with `n * 2 ^ j`. -/
def compareScaled (a : Nat) (i : Int) (n : Nat) (j : Int) : Ordering :=
  compare (a * Nat.pow 10 i.toNat * Nat.pow 2 (-j).toNat)
    (n * Nat.pow 2 j.toNat * Nat.pow 10 (-i).toNat)

/-- Whether a decimal lies among the reals that round to the value. The ends of the interval belong
to it when the significand is even. -/
def Magnitude.readsBack (size : Magnitude) (d : Decimal) : Bool :=
  let low := if size.narrowBelow then 4 * size.significand - 1 else 4 * size.significand - 2
  let high := 4 * size.significand + 2
  let closed := size.significand % 2 == 0
  let below := compareScaled d.digits d.exponent low (size.exponent - 2)
  let above := compareScaled d.digits d.exponent high (size.exponent - 2)
  (below == .gt || (closed && below == .eq)) && (above == .lt || (closed && above == .eq))

/-- The least `k` with `significand * 2 ^ exponent < 10 ^ k`, for a value that is not zero. -/
def Magnitude.decade (size : Magnitude) : Int :=
  let start := ((size.significand.log2 : Int) + size.exponent) * 30103 / 100000 - 1
  let candidates := [start, start + 1, start + 2, start + 3]
  let above := candidates.find? fun k => compareScaled 1 k size.significand size.exponent == .gt
  above.getD (start + 4)

/-- The value itself as a decimal. -/
def Magnitude.exactDecimal (size : Magnitude) : Decimal :=
  ⟨size.significand * Nat.pow 2 size.exponent.toNat * Nat.pow 5 (-size.exponent).toNat,
    min size.exponent 0⟩

/-- The best decimal on the grid of multiples of `10 ^ grid`, if a neighbour of the value on it
reads back. -/
def Magnitude.onGrid (size : Magnitude) (grid : Int) : Option Decimal :=
  let num := size.significand * Nat.pow 2 size.exponent.toNat * Nat.pow 10 (-grid).toNat
  let den := Nat.pow 2 (-size.exponent).toNat * Nat.pow 10 grid.toNat
  let low : Decimal := ⟨num / den, grid⟩
  let high : Decimal := ⟨num / den + 1, grid⟩
  match size.readsBack low, size.readsBack high with
  | true, true => if 2 * (num % den) < den then some low else some high
  | true, false => some low
  | false, true => some high
  | false, false => none

/-- Moves the zeros at the end of the digits into the exponent. -/
def stripZeros (fuel digits : Nat) (exponent : Int) : Decimal :=
  match fuel with
  | 0 => ⟨digits, exponent⟩
  | fuel + 1 =>
    if digits ≠ 0 ∧ digits % 10 = 0 then stripZeros fuel (digits / 10) (exponent + 1)
    else ⟨digits, exponent⟩

/-- The decimal without zeros at the end of its digits. -/
def Decimal.strip (d : Decimal) : Decimal :=
  stripZeros d.digits.log2 d.digits d.exponent

/-- The shortest decimal that reads back to the value. -/
def Magnitude.shortest (size : Magnitude) : Decimal :=
  if size.significand = 0 then ⟨0, 0⟩
  else
    let decade := size.decade
    let found := (List.range 17).findSome? fun (n : Nat) => size.onGrid (decade - 1 - n)
    (found.getD size.exactDecimal).strip

end NodeScript
