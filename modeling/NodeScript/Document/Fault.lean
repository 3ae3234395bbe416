import NodeScript.Numeric.Decimal
import NodeScript.Text.Names
import NodeScript.Text.Quoted

/-!
What can be wrong with the text of a stored document, in words, and where in the text it is.
-/

namespace NodeScript

/-- What can be wrong with an escape in quoted text. -/
inductive EscapeFault where
  | unknown
  | notHexadecimal
  | notEncoded
  | notEncodedInChar
  | numberUnopened
  | numberEmpty
  | numberUnclosed
  | numberOfNoChar
  | numberInByte
deriving DecidableEq, Repr, Inhabited

/-- The wording of the fault. -/
def EscapeFault.message : EscapeFault → String
  | .unknown => "Unknown escape character"
  | .notHexadecimal => "Non-hex digit found"
  | .notEncoded => "Not a valid byte-escaped Unicode character"
  | .notEncodedInChar => "Not a valid byte-escaped Unicode character in char"
  | .numberUnopened => "Missing \x7b in Unicode escape"
  | .numberEmpty => "Expected 1-6 digits, got 0 digits in Unicode escape"
  | .numberUnclosed => "No \x7d at the end of Unicode escape"
  | .numberOfNoChar => "Not a valid Unicode-escaped character"
  | .numberInByte => "Unexpected Unicode escape in byte literal"

/-- Why a text is not the document that was asked for. -/
inductive DocumentFault where
  | unexpectedEnd
  | unexpectedChar (found : Char)
  | unclosedComment
  | expectedAttribute
  | expectedAttributeEnd
  | unknownExtension (name : String)
  | expectedComma
  | expectedColon
  | expectedName
  /-- A name holds characters that only a marked name may hold. -/
  | unmarkedName (found : String)
  | expectedBool
  | expectedInteger
  | expectedFloat
  | expectedByte
  | expectedBytes
  | expectedChar
  | expectedText
  | expectedTextEnd
  | badEscape (fault : EscapeFault)
  | leadingUnderscore
  | misplacedUnderscore
  | outOfBounds
  | badDigit (digit : Char) (base : Nat)
  | otherNumber (expected found : String)
  | expectedOption
  | expectedList
  | expectedTable
  | expectedGroup
  | expectedGroupOf (name : String)
  | expectedGroupEnd
  | expectedNameOf (name : String)
  | differentName (expected found : String)
  | differentLength (expected : String) (found : Nat)
  | unknownVariant (found : String) (known : List String) (owner : String)
  | missingField (field : String) (owner : Option String)
  | duplicateField (field : String) (owner : Option String)
  | refused (message : String)
  | tooDeep
  | trailingText
deriving DecidableEq, Repr, Inhabited

/-- Whether a character may stand in a marked name. -/
def isMarkedNameChar (c : Char) : Bool := c == '.' || c == '+' || c == '-' || isNameChar c

/-- Whether a text is a name that needs no mark. -/
def isPlainName (name : String) : Bool :=
  match name.toList with
  | [] => false
  | c :: rest => isNameStart c && rest.all isNameChar

/-- A name as messages show it: with a mark if it needs one. -/
def shownName (name : String) : String :=
  if name.isEmpty || !name.toList.all isMarkedNameChar then
    s!"{quoteLabel name}_[invalid identifier]"
  else if isPlainName name then s!"`{name}`"
  else s!"`r#{name}`"

/-- A character in single quotes as messages show it. -/
def quoteLabelChar (c : Char) : String :=
  String.ofList ('\'' :: (if c = '"' then ['"'] else escapeVisible true c) ++ ['\''])

/-- The names that would have been right. -/
def shownChoice : List String → String
  | [] => "there are no variants"
  | [name] => s!"expected {shownName name} instead"
  | [first, second] => s!"expected either {shownName first} or {shownName second} instead"
  | first :: second :: others =>
    let middle := (second :: others).dropLast.map fun name => s!", {shownName name}"
    let last := (second :: others).getLast (by simp)
    s!"expected one of {shownName first}{String.join middle}, or {shownName last} instead"

/-- The record that a field belongs to, if it is known. -/
def shownOwner : Option String → String
  | none => ""
  | some owner => s!" in {shownName owner}"

/-- How many elements there are. -/
def shownCount : Nat → String
  | 0 => "zero elements"
  | 1 => "one element"
  | n => String.ofList (natDigits n) ++ " elements"

/-- The wording of the fault. -/
def DocumentFault.message : DocumentFault → String
  | .unexpectedEnd => "Unexpected end of RON"
  | .unexpectedChar found => s!"Unexpected char {quoteLabelChar found}"
  | .unclosedComment => "Unclosed block comment"
  | .expectedAttribute => "Expected an `#![enable(...)]` attribute"
  | .expectedAttributeEnd => "Expected closing `)]` after the enable attribute"
  | .unknownExtension name => s!"No RON extension named {shownName name}"
  | .expectedComma => "Expected comma"
  | .expectedColon => "Expected colon"
  | .expectedName => "Expected identifier"
  | .unmarkedName found =>
    s!"Found invalid std identifier {quoteLabel found}, try the raw identifier `r#{found}` instead"
  | .expectedBool => "Expected boolean"
  | .expectedInteger => "Expected integer"
  | .expectedFloat => "Expected float"
  | .expectedByte => "Expected byte literal"
  | .expectedBytes => "Expected byte string"
  | .expectedChar => "Expected char"
  | .expectedText => "Expected string"
  | .expectedTextEnd => "Expected end of string"
  | .badEscape fault => fault.message
  | .leadingUnderscore => "Unexpected leading underscore in a number"
  | .misplacedUnderscore => "Unexpected underscore in float"
  | .outOfBounds => "Integer is out of bounds"
  | .badDigit digit base =>
    s!"Invalid digit {quoteLabelChar digit} for base {String.ofList (natDigits base)} integers"
  | .otherNumber expected found => s!"Expected {expected} but found {found} instead"
  | .expectedOption => "Expected option"
  | .expectedList => "Expected opening `[`"
  | .expectedTable => "Expected opening `\x7b`"
  | .expectedGroup => "Expected opening `(`"
  | .expectedGroupOf name => s!"Expected opening `(` for struct {shownName name}"
  | .expectedGroupEnd => "Expected closing `)`"
  | .expectedNameOf name =>
    s!"Expected the explicit struct name {shownName name}, but none was found"
  | .differentName expected found =>
    s!"Expected struct {shownName expected} but found {shownName found}"
  | .differentLength expected found => s!"Expected {expected} but found {shownCount found} instead"
  | .unknownVariant found known owner =>
    s!"Unexpected variant named {shownName found} in enum {shownName owner}, {shownChoice known}"
  | .missingField field owner =>
    s!"Unexpected missing field named {shownName field}{shownOwner owner}"
  | .duplicateField field owner =>
    s!"Unexpected duplicate field named {shownName field}{shownOwner owner}"
  | .refused message => message
  | .tooDeep =>
    "Exceeded recursion limit, try increasing `ron::Options::recursion_limit` and using "
      ++ "`serde_stacker` to protect against a stack overflow"
  | .trailingText => "Non-whitespace trailing characters"

/-- Names the record that a missing or repeated field belongs to, unless it is known. -/
def DocumentFault.inOwner (owner : String) : DocumentFault → DocumentFault
  | .missingField field none => .missingField field (some owner)
  | .duplicateField field none => .duplicateField field (some owner)
  | other => other

/-- A fault with the text from its place on. -/
structure PlacedFault where
  cause : DocumentFault
  rest : List Char
deriving DecidableEq, Repr, Inhabited

/-- A place in a text, both numbers counted from one. -/
structure TextPlace where
  line : Nat
  column : Nat
deriving DecidableEq, Repr

/-- The place behind a text. -/
def placeBehind (text : List Char) : TextPlace :=
  text.foldl (fun p c => if c = '\n' then ⟨p.line + 1, 1⟩ else ⟨p.line, p.column + 1⟩) ⟨1, 1⟩

/-- The place of what is left of a text. -/
def placeOf (text rest : List Char) : TextPlace :=
  placeBehind (text.take (text.length - rest.length))

/-- Why a text is not a document of the right kind, with the place in the text. -/
structure ReadError where
  place : TextPlace
  cause : DocumentFault
deriving DecidableEq, Repr

/-- The wording of the error, which starts with the place. -/
def ReadError.text (e : ReadError) : String :=
  String.ofList (natDigits e.place.line) ++ ":" ++ String.ofList (natDigits e.place.column) ++ ": "
    ++ e.cause.message

end NodeScript
