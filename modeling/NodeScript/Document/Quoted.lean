import NodeScript.Document.Scan
import NodeScript.Text.Lines
import NodeScript.Text.Utf8
import NodeScript.Uuid

/-!
Quoted parts of stored documents: text, characters and bytes. Text and bytes may be raw, that is
without escapes and up to a quote that is followed by as many signs as stand before the first one.
-/

namespace NodeScript

/-- Where an escape stands. -/
inductive EscapePlace where
  | text
  | char
  | bytes
deriving DecidableEq, Repr

/-- What an escape stands for. -/
inductive Escaped where
  | byte (value : UInt8)
  | char (value : Char)
deriving DecidableEq, Repr

/-- The character that an escape stands for. -/
def Escaped.read : Escaped → Char
  | .byte value => Char.ofNat value.toNat
  | .char value => value

/-- The byte that an escape of one letter stands for. -/
def letterEscape? (c : Char) : Option UInt8 :=
  if c = '\'' || c = '"' || c = '\\' then some (UInt8.ofNat c.toNat)
  else if c = 'n' then some 0x0A
  else if c = 'r' then some 0x0D
  else if c = 't' then some 0x09
  else if c = '0' then some 0
  else none

namespace Scan

/-- Stops at a fault in an escape. -/
def stopEscape {α : Type} (fault : EscapeFault) : Scan α := stop (.badEscape fault)

/-- The value of a hexadecimal digit that has been taken. -/
def hexValue (c : Char) : Scan Nat :=
  match hexValue? c with
  | some value => return value
  | none => stopEscape .notHexadecimal

/-- Takes two hexadecimal digits. -/
def hexByte : Scan UInt8 := do
  let high ← hexValue (← next)
  let low ← hexValue (← next)
  return UInt8.ofNat (16 * high + low)

/-- Takes escaped bytes, as many as may follow, until a character is complete. -/
def encodedChar : (more : Nat) → (before : List UInt8) → Scan Char
  | 0, _ => stopEscape .notEncoded
  | more + 1, before => do
    if !(← take? ['\\', 'x']) then stopEscape .notEncoded
    let bytes := before ++ [← hexByte]
    match charOfUtf8? bytes with
    | some c => return c
    | none => encodedChar more bytes

/-- Takes hexadecimal digits up to a closing brace, as many as may follow: their number and their
value. -/
def numberDigits : (more : Nat) → (count value : Nat) → Scan (Nat × Nat)
  | 0, count, value => return (count, value)
  | more + 1, count, value => do
    let c ← peek
    if c = '\x7d' then return (count, value)
    else
      let digit ← hexValue (← next)
      numberDigits more (count + 1) (16 * value + digit)

/-- Takes the number of a character in braces. -/
def numberedChar : Scan Char := do
  expect '\x7b' (.badEscape .numberUnopened)
  let (count, value) ← numberDigits 6 0 0
  if count = 0 then stopEscape .numberEmpty
  expect '\x7d' (.badEscape .numberUnclosed)
  if value.isValidChar then return Char.ofNat value else stopEscape .numberOfNoChar

/-- Takes an escape from behind its backslash. -/
def escape (place : EscapePlace) : Scan Escaped := do
  let c ← next
  match letterEscape? c with
  | some byte => return .byte byte
  | none =>
    if c = 'x' then
      let byte ← hexByte
      if byte < 0x80 || place = .bytes then return .byte byte
      else if place = .char then stopEscape .notEncodedInChar
      else return .char (← encodedChar 3 [byte])
    else if c = 'u' then return .char (← numberedChar)
    else stopEscape .unknown

/-- Takes quoted text from behind its opening quote or from behind an escape in it, with its closing
quote. A quote has to be left before an escape is looked at. -/
def quotedRest (place : EscapePlace) : (budget : List Char) → (before : List Char) →
    Scan (List Char)
  | [], _ => stop .expectedTextEnd
  | _ :: budget, before => do
    let text ← get
    if !text.contains '"' then stop .expectedTextEnd
    let plain := text.takeWhile fun c => c != '"' && c != '\\'
    set (text.drop plain.length)
    let read := plain.reverse ++ before
    if (← next) = '"' then return read.reverse
    else
      let escaped ← escape place
      quotedRest place budget (escaped.read :: read)

/-- Takes quoted text from behind its opening quote. -/
def quoted (place : EscapePlace) : Scan (List Char) := fun text =>
  quotedRest place ('"' :: text) [] text

/-- Takes raw text from behind its letter. -/
def raw (otherwise : DocumentFault) : Scan (List Char) := do
  let signs ← takeWhile (· == '#')
  expect '"' otherwise
  match cutAround? ('"' :: signs) (← get) with
  | some (inside, rest) =>
    set rest
    return inside
  | none => stop .expectedTextEnd

/-- Takes text in double quotes, which may be raw. -/
def quotedText : Scan String := do
  if ← take? ['"'] then return String.ofList (← quoted .text)
  else if ← take? ['r'] then return String.ofList (← raw .expectedText)
  else stop .expectedText

/-- Takes bytes in double quotes, which may be raw. -/
def quotedBytes : Scan Unit := do
  if ← take? ['b', '"'] then let _ ← quoted .bytes
  else if ← take? ['b', 'r'] then let _ ← raw .expectedBytes
  else stop .expectedBytes

/-- Takes a character in single quotes. -/
def quotedChar : Scan Char := do
  expect '\'' .expectedChar
  let c ← next
  let value ← if c = '\\' then Escaped.read <$> escape .char else pure c
  expect '\'' .expectedChar
  return value

/-- Takes a byte in single quotes from behind the opening one. -/
def quotedByte : Scan UInt8 := do
  let c ← next
  let value ←
    if c = '\\' then
      match ← escape .bytes with
      | .byte value => pure value
      | .char _ => stopEscape .numberInByte
    else if c.toNat < 0x80 then pure (UInt8.ofNat c.toNat)
    else stop .expectedByte
  expect '\'' .expectedByte
  return value

end Scan

end NodeScript
