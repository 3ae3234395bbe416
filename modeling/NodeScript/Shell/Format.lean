import NodeScript.Shell.Lexer

/-!
The text that `echo` and `printf` print. Letters and octal digits behind a backslash stand for
characters; a place in a format takes a word, and the format starts anew as long as words are left.
-/

namespace NodeScript.Shell

/-- The characters that letters behind a backslash stand for. -/
def escapedChars : List (Char × Char) :=
  [('a', '\x07'), ('b', '\x08'), ('f', '\x0c'), ('n', '\n'), ('r', '\x0d'), ('t', '\t'),
    ('v', '\x0b'), ('\\', '\\')]

/-- Whether a character is an octal digit. -/
def isOctal (c : Char) : Bool := '0' ≤ c && c ≤ '7'

/-- The byte of the octal digits at the start of a text, at most `limit` of them, and what is behind
them. -/
def takeOctal (limit : Nat) (text : Bytes) : Char × Bytes :=
  let digits := (text.take limit).takeWhile isOctal
  (Char.ofNat (digits.foldl (fun n c => 8 * n + (c.toNat - '0'.toNat)) 0 % 256),
    text.drop digits.length)

/-- A text with its escapes replaced, and whether it ends the output. A zero leads the octal digits
of a byte. -/
def unescapeWord : (budget : Bytes) → Bytes → Bytes × Bool
  | [], text => (text, false)
  | _ :: budget, text =>
    let continueWith (c : Char) (rest : Bytes) : Bytes × Bool :=
      let (others, ended) := unescapeWord budget rest
      (c :: others, ended)
    match text with
    | [] => ([], false)
    | '\\' :: 'c' :: _ => ([], true)
    | '\\' :: '0' :: rest =>
      let (byte, rest) := takeOctal 3 rest
      continueWith byte rest
    | '\\' :: c :: rest =>
      if isOctal c then
        let (byte, rest) := takeOctal 3 (c :: rest)
        continueWith byte rest
      else
        match escapedChars.lookup c with
        | some d => continueWith d rest
        | none => continueWith '\\' (c :: rest)
    | c :: rest => continueWith c rest

/-- What `echo` prints of its words. -/
def echoText (words : List Bytes) : Bytes :=
  let (unended, words) :=
    match words with
    | ['-', 'n'] :: rest => (true, rest)
    | _ => (false, words)
  let (text, ended) := unescapeWord (List.intercalate [' '] words) (List.intercalate [' '] words)
  if unended || ended then text else text ++ ['\n']

/-- A place of a format. -/
structure FormatPlace where
  flags : Bytes
  width : Option Nat
  precision : Option Nat
  conversion : Char
deriving Repr

/-- A part of a format. A width or precision that is a star takes a word. -/
inductive FormatPart where
  | text (text : Bytes)
  | place (flags : Bytes) (width precision : Bytes) (conversion : Char)
  /-- Ends the output. -/
  | ended
deriving Repr, Inhabited

/-- Whether a character is a flag of a place. -/
def isFormatFlag (c : Char) : Bool := c == '-' || c == '+' || c == ' ' || c == '#' || c == '0'

/-- Digits or a star at the start of a text, and what is behind them. -/
def takeSize : Bytes → Bytes × Bytes
  | '*' :: rest => (['*'], rest)
  | text => (text.takeWhile Char.isDigit, text.dropWhile Char.isDigit)

/-- The parts of a format. -/
def readFormat : (budget : Bytes) → Bytes → List FormatPart
  | [], _ => []
  | _ :: budget, text =>
    match text with
    | [] => []
    | '\\' :: 'c' :: _ => [.ended]
    | '\\' :: c :: rest =>
      if isOctal c then
        let (byte, rest) := takeOctal 3 (c :: rest)
        .text [byte] :: readFormat budget rest
      else
        match escapedChars.lookup c with
        | some d => .text [d] :: readFormat budget rest
        | none => .text ['\\', c] :: readFormat budget rest
    | '%' :: '%' :: rest => .text ['%'] :: readFormat budget rest
    | '%' :: rest =>
      let flags := rest.takeWhile isFormatFlag
      let (width, rest) := takeSize (rest.dropWhile isFormatFlag)
      let (precision, rest) :=
        match rest with
        | '.' :: more =>
          let (digits, after) := takeSize more
          (if digits.isEmpty then ['0'] else digits, after)
        | _ => ([], rest)
      match rest with
      | [] => [.place flags width precision '%']
      | c :: rest => .place flags width precision c :: readFormat budget rest
    | c :: rest => .text [c] :: readFormat budget rest

/-- The parts of a format that is read as a whole. -/
def formatParts (format : Bytes) : List FormatPart := readFormat format format

/-- What has been printed of a format: the text, the words that are left, what was complained about,
and whether the output has ended. -/
structure Printing where
  text : Bytes
  words : List Bytes
  complaints : List String
  ended : Bool
  /-- Whether a part of the format is none. -/
  invalid : Bool
deriving Repr

namespace Printing

/-- The next word, which is empty if none is left. -/
def next (p : Printing) : Bytes × Printing := (p.words.headD [], { p with words := p.words.tail })

/-- Adds text. -/
def add (p : Printing) (text : Bytes) : Printing := { p with text := p.text ++ text }

/-- Adds a complaint about a word. -/
def complain (p : Printing) (word : Bytes) (about : String) : Printing :=
  { p with complaints := p.complaints ++ [textOf word ++ ": " ++ about] }

end Printing

/-- The value of a digit in a base, if it is one. -/
def digitValue? (base : Nat) (c : Char) : Option Nat :=
  let value :=
    if c.isDigit then c.toNat - '0'.toNat
    else if 'a' ≤ c && c ≤ 'z' then c.toNat - 'a'.toNat + 10
    else if 'A' ≤ c && c ≤ 'Z' then c.toNat - 'A'.toNat + 10
    else base
  if value < base then some value else none

/-- The number that the digits at the start of a text stand for, and what is behind them. -/
def takeNumber (base : Nat) (text : Bytes) : Nat × Bytes :=
  let digits := text.takeWhile fun c => (digitValue? base c).isSome
  (digits.foldl (fun n c => base * n + (digitValue? base c).getD 0) 0, text.drop digits.length)

/-- The number at the start of a text, whose base is told by its first digits, and what is behind
it. -/
def takeNatural (text : Bytes) : Nat × Bytes :=
  match text with
  | '0' :: x :: c :: rest =>
    if (x = 'x' || x = 'X') && (digitValue? 16 c).isSome then takeNumber 16 (c :: rest)
    else takeNumber 8 text
  | '0' :: _ => takeNumber 8 text
  | _ => takeNumber 10 text

/-- The number at the start of a word behind blanks and a sign, and what is behind it. -/
def takeInteger (word : Bytes) : Int × Bytes :=
  let word := word.dropWhile isSpaceByte
  match word with
  | '-' :: rest =>
    let (n, after) := takeNatural rest
    (-n, if after.length = rest.length then word else after)
  | '+' :: rest =>
    let (n, after) := takeNatural rest
    (n, if after.length = rest.length then word else after)
  | _ =>
    let (n, after) := takeNatural word
    (n, after)
where
  /-- Whether a byte is a blank or ends a line or page. -/
  isSpaceByte (c : Char) : Bool := c == ' ' || ('\t' ≤ c && c ≤ '\r')

/-- The greatest number of a place. -/
def greatestPlaced : Int := (Nat.pow 2 63 : Int) - 1

/-- The least number of a place. -/
def leastPlaced : Int := -(Nat.pow 2 63 : Int)

/-- The number that a word stands for in a place. A quote stands for the byte behind it. -/
def Printing.number (p : Printing) (word : Bytes) : Int × Printing :=
  match word with
  | [] => (0, p)
  | q :: rest =>
    if q = '\'' || q = '"' then (((rest.head?.map Char.toNat).getD 0 : Nat), p)
    else
      let (n, after) := takeInteger word
      if after.length = word.length then (0, p.complain word "expected numeric value")
      else if !after.isEmpty then (n, p.complain word "not completely converted")
      else if greatestPlaced < n then
        (greatestPlaced, p.complain word "Numerical result out of range")
      else if n < leastPlaced then (leastPlaced, p.complain word "Numerical result out of range")
      else (n, p)

/-- The digits of a number in a base. -/
def digitsIn (base n : Nat) : Bytes := Nat.toDigits base n

/-- A number of the size of words, wrapped around to be positive. -/
def asUnsigned (n : Int) : Nat := (n % (Nat.pow 2 64 : Int)).toNat

/-- Text filled up to a width, on the left or the right. -/
def fill (flags : Bytes) (width : Nat) (text : Bytes) : Bytes :=
  let blanks := List.replicate (width - text.length) ' '
  if flags.contains '-' then text ++ blanks else blanks ++ text

/-- A number with its sign, filled up with zeros to its precision or to the width. -/
def fillNumber (flags : Bytes) (width : Nat) (precision : Option Nat) (sign digits : Bytes) :
    Bytes :=
  let shown :=
    match precision with
    | some least =>
      if least = 0 && digits = ['0'] then []
      else List.replicate (least - digits.length) '0' ++ digits
    | none =>
      if flags.contains '0' && !flags.contains '-' then
        List.replicate (width - sign.length - digits.length) '0' ++ digits
      else digits
  fill flags width (sign ++ shown)

/-- The sign that is printed in front of a number. -/
def signOf (flags : Bytes) (negative : Bool) : Bytes :=
  if negative then ['-'] else if flags.contains '+' then ['+']
  else if flags.contains ' ' then [' '] else []

/-- A fraction by numerator and denominator, if a word stands for one: an integer, digits behind a
point and an exponent. -/
def readFraction? (word : Bytes) : Option (Bool × Nat × Nat) :=
  let (negative, word) :=
    match word with
    | '-' :: rest => (true, rest)
    | '+' :: rest => (false, rest)
    | _ => (false, word)
  let whole := word.takeWhile Char.isDigit
  let rest := word.drop whole.length
  let (part, rest) :=
    match rest with
    | '.' :: more => (more.takeWhile Char.isDigit, more.dropWhile Char.isDigit)
    | _ => ([], rest)
  if whole.isEmpty && part.isEmpty then none
  else
    let numerator := digitsValue (whole ++ part)
    match rest with
    | [] => some (negative, numerator, Nat.pow 10 part.length)
    | e :: '-' :: exponent =>
      if (e = 'e' || e = 'E') && exponent.all Char.isDigit && exponent.length ≤ 3 then
        some (negative, numerator, Nat.pow 10 (part.length + digitsValue exponent))
      else none
    | e :: exponent =>
      let digits := if exponent.head? = some '+' then exponent.tail else exponent
      if (e = 'e' || e = 'E') && digits.all Char.isDigit && digits.length ≤ 3 then
        some (negative, numerator * Nat.pow 10 (digitsValue digits), Nat.pow 10 part.length)
      else none

/-- The digits of a fraction with so many behind the point, rounded to the nearest. -/
def fractionDigits (numerator denominator precision : Nat) : Bytes :=
  let scaled := numerator * Nat.pow 10 precision
  let below := scaled / denominator
  let twice := 2 * (scaled % denominator)
  let rounded :=
    if denominator < twice || (twice = denominator && below % 2 = 1) then below + 1 else below
  let digits := digitsIn 10 rounded
  let digits := List.replicate (precision + 1 - digits.length) '0' ++ digits
  let whole := digits.take (digits.length - precision)
  if precision = 0 then whole else whole ++ '.' :: digits.drop whole.length

/-- Prints a place of a format. -/
def Printing.place (p : Printing) (f : FormatPlace) : Printing :=
  let width := f.width.getD 0
  let integer (write : Int → Bytes × Bytes) : Printing :=
    let (word, p) := p.next
    let (n, p) := p.number word
    let (sign, digits) := write n
    p.add (fillNumber f.flags width f.precision sign digits)
  match f.conversion with
  | 's' =>
    let (word, p) := p.next
    p.add (fill f.flags width (match f.precision with
      | some most => word.take most
      | none => word))
  | 'b' =>
    let (word, p) := p.next
    let (text, ended) := unescapeWord word word
    { p.add (fill f.flags width (match f.precision with
      | some most => text.take most
      | none => text)) with ended }
  | 'c' =>
    let (word, p) := p.next
    p.add (fill f.flags width [word.headD '\x00'])
  | 'd' => integer fun n => (signOf f.flags (n < 0), digitsIn 10 n.natAbs)
  | 'i' => integer fun n => (signOf f.flags (n < 0), digitsIn 10 n.natAbs)
  | 'u' => integer fun n => ([], digitsIn 10 (asUnsigned n))
  | 'o' => integer fun n =>
      (if f.flags.contains '#' then ['0'] else [], digitsIn 8 (asUnsigned n))
  | 'x' => integer fun n =>
      (if f.flags.contains '#' && n ≠ 0 then ['0', 'x'] else [], digitsIn 16 (asUnsigned n))
  | 'X' => integer fun n =>
      (if f.flags.contains '#' && n ≠ 0 then ['0', 'X'] else [],
        (digitsIn 16 (asUnsigned n)).map Char.toUpper)
  | 'f' =>
    let (word, p) := p.next
    match readFraction? (if word.isEmpty then ['0'] else word) with
    | some (negative, numerator, denominator) =>
      let digits := fractionDigits numerator denominator (f.precision.getD 6)
      p.add (fillNumber f.flags width none (signOf f.flags negative) digits)
    | none =>
      (p.complain word "expected numeric value").add
        (fillNumber f.flags width none [] (fractionDigits 0 1 (f.precision.getD 6)))
  | c => { p.complain ['%', c] "invalid directive" with ended := true, invalid := true }

/-- The number of a width or precision, which a star takes from the words, behind it the words. -/
def Printing.size (p : Printing) (digits : Bytes) : Option Int × Printing :=
  if digits.isEmpty then (none, p)
  else if digits = ['*'] then
    let (word, p) := p.next
    let (n, p) := p.number word
    (some n, p)
  else (some (digitsValue digits), p)

/-- Prints a part of a format. -/
def Printing.part (p : Printing) : FormatPart → Printing
  | .text text => if p.ended then p else p.add text
  | .ended => { p with ended := true }
  | .place flags width precision conversion =>
    if p.ended then p
    else
      let (width, p) := p.size width
      let (precision, p) := p.size precision
      let flags := if (width.getD 0) < 0 then '-' :: flags else flags
      p.place ⟨flags, width.map Int.natAbs,
        precision.bind fun n => if n < 0 then none else some n.toNat, conversion⟩

/-- Prints a format, and prints it again as long as that takes words and some are left. -/
def Printing.format (parts : List FormatPart) : (budget : Nat) → Printing → Printing
  | 0, p => p
  | budget + 1, p =>
    let q := parts.foldl Printing.part p
    if q.ended || q.words.isEmpty || q.words.length = p.words.length then q
    else Printing.format parts budget q

/-- What `printf` prints of a format and its words. -/
def printFormat (format : Bytes) (words : List Bytes) : Printing :=
  Printing.format (formatParts format) (words.length + 1) ⟨[], words, [], false, false⟩

end NodeScript.Shell
