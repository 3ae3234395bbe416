import NodeScript.Document.Numeral
import NodeScript.Document.Scan

/-!
What a document may switch on in front of its value, by attributes that name extensions of the
format.

Values that nobody asks for, which stand in fields that a record does not have. They may be of any
kind, but have to be well formed and may not be nested too deep: a group, list or table takes a
level and each of its parts another, and so does the content of `Some`.
-/

namespace NodeScript

/-! ### Extensions -/

/-- What a document has switched on. -/
structure DocumentOptions where
  /-- A value stands for itself where one may be missing. -/
  implicitSome : Bool
  /-- A value that only wraps another is written as that one. -/
  unwrapNewtypes : Bool
  /-- The parentheses of a variant hold the fields of its content. -/
  unwrapVariantNewtypes : Bool
  /-- The names of records may not be left out. -/
  explicitStructNames : Bool
deriving DecidableEq, Repr

/-- Nothing is switched on. -/
def DocumentOptions.standard : DocumentOptions := ⟨false, false, false, false⟩

instance : Inhabited DocumentOptions := ⟨.standard⟩

/-- Switches an option on by the name of its extension. -/
def DocumentOptions.enable? (o : DocumentOptions) (name : String) : Option DocumentOptions :=
  if name = "implicit_some" then some { o with implicitSome := true }
  else if name = "unwrap_newtypes" then some { o with unwrapNewtypes := true }
  else if name = "unwrap_variant_newtypes" then some { o with unwrapVariantNewtypes := true }
  else if name = "explicit_struct_names" then some { o with explicitStructNames := true }
  else none

namespace Scan

/-- Takes each of these parts that is there, with the white space behind it, and says whether all
were there. -/
def takeEach : List String → Scan Bool
  | [] => return true
  | part :: parts => do
    let found ← take? part.toList
    if found then layout
    let others ← takeEach parts
    return found && others

/-- Takes the names of extensions with commas between them, each of which is switched on. -/
def extensions : (budget : List Char) → DocumentOptions → Scan DocumentOptions
  | [], o => return o
  | _ :: budget, o => do
    let name ← Scan.name
    match o.enable? name with
    | none => stop (.unknownExtension name)
    | some more =>
      let separated ← comma
      let nameFollows := ((← get).head?).any isNameChar
      if !separated && nameFollows then stop .expectedComma
      else if nameFollows then extensions budget more
      else return more

/-- Takes the attributes in front of the value of a document, with white space around them. -/
def attributes : (budget : List Char) → DocumentOptions → Scan DocumentOptions
  | [], o => return o
  | _ :: budget, o => do
    layout
    if !(← startsWith '#') then return o
    else
      if !(← takeEach ["#", "!", "[", "enable", "("]) then stop .expectedAttribute
      let o ← extensions (',' :: (← get)) o
      layout
      if !(← takeEach [")", "]"]) then stop .expectedAttributeEnd
      attributes budget o

/-- Takes everything in front of the value of a document. -/
def options : Scan DocumentOptions := fun text => attributes (' ' :: text) .standard text

end Scan

/-! ### Values that are skipped -/

/-- What the parentheses around a value turn out to hold. -/
inductive GroupShape where
  | fields
  | items
  | value
deriving DecidableEq, Repr

namespace Scan

/-- How many levels groups, lists and tables may be nested in a document. -/
def nestingLimit : Nat := 128

/-- Requires that a level is left. -/
def level (depth : Nat) : Scan Unit := if depth = 0 then stop .tooDeep else pure ()

/-- Takes a quoted part, if there is one. -/
def skipQuoted : Scan Unit := do
  attempt (discard quotedChar)
  attempt (discard quotedText)
  attempt quotedBytes

/-- Takes characters up to the parenthesis that closes the innermost open one, and says whether a
comma with something behind it stands between the parts. -/
def severalParts : (budget : List Char) → (openings : Nat) → Scan Bool
  | [], _ => stop .unexpectedEnd
  | _ :: budget, openings => do
    layout
    skipQuoted
    let c ← next
    if c = '(' || c = '[' || c = '\x7b' then severalParts budget (openings + 1)
    else if c = ')' || c = ']' || c = '\x7d' then
      match openings with
      | outer + 1 => severalParts budget outer
      | 0 => return false
    else if c = ',' && openings = 0 then
      layout
      return !(← startsWith ')')
    else severalParts budget openings

/-- What the text goes on with inside parentheses that have been opened. -/
def openedShape : Scan GroupShape := do
  layout
  if ← name? then
    layout
    match (← get).head? with
    | some ':' => return .fields
    | some ')' => return .value
    | some ',' =>
      let _ ← next
      layout
      return if ← startsWith ')' then .value else .items
    | _ => pure ()
  let text ← get
  return if ← severalParts (',' :: text) 0 then .items else .value

/-- What stands in parentheses that are still to be opened; nothing is told apart but fields. -/
def groupShape : Scan GroupShape := do
  let _ ← next
  layout
  if ← name? then
    layout
    if ← startsWith ':' then return .fields
    else if ← startsWith ',' then
      let _ ← next
      layout
  return .items

/-- Looks ahead: the text is left as it is. -/
def ahead {α : Type} (step : Scan α) : Scan α := fun text =>
  match step text with
  | .ok (result, _) => .ok (result, text)
  | .error fault => .error fault

/-- Takes the fields of a group up to its closing parenthesis, which is left. -/
def skipFields (depth : Nat) (part : Scan Unit) : Scan Unit := do
  level depth
  parts ')' (fun _ => do
    level (depth - 1)
    let _ ← Scan.name
    colon
    part) ()

/-- Takes the items of a group up to its closing sign, which is left. -/
def skipItems (closing : Char) (depth : Nat) (part : Scan Unit) : Scan Unit := do
  level depth
  parts closing (fun _ => do
    level (depth - 1)
    part) ()

/-- Takes the entries of a table up to its closing brace, which is left. -/
def skipEntries (depth : Nat) (part : Scan Unit) : Scan Unit := do
  level depth
  parts '\x7d' (fun _ => do
    level (depth - 1)
    part
    colon
    part) ()

/-- Takes a group in parentheses. -/
def skipGroup (depth : Nat) (part : Scan Unit) : Scan Unit := do
  match ← ahead groupShape with
  | .fields =>
    let _ ← next
    skipFields depth part
  | _ =>
    let _ ← next
    skipItems ')' depth part
  let _ ← next

/-- Takes `Some` with its content or, if that is switched on, without its parentheses. -/
def skipSome (o : DocumentOptions) (depth : Nat) (content : (opened : Bool) → Scan Unit) :
    Scan Unit := do
  let _ ← word? "Some"
  layout
  if ← take? ['('] then
    layout
    level depth
    content o.unwrapVariantNewtypes
    let _ ← comma
    expect ')' .expectedGroupEnd
  else if o.implicitSome then
    level depth
    content false
  else stop .expectedOption

/-- The words for floating point numbers that no numeral denotes, without a sign. -/
def unsignedFloatWords : List String := ["inf", "inff32", "inff64", "NaN", "NaNf32", "NaNf64"]

/-- Whether the text goes on with one of these words. -/
def atWordOf (words : List String) : Scan Bool := fun text =>
  .ok (words.any fun word => (word.toList.isPrefixOf? text).any wordEnds, text)

/-- Takes a value whose parts are taken by `part` and whose content behind `Some` by `content`. -/
def skipPlain (o : DocumentOptions) (depth : Nat) (part : Scan Unit)
    (content : (opened : Bool) → Scan Unit) : Scan Unit := do
  if ← word? "true" then return
  else if ← word? "false" then return
  else if ← atWord "Some" then skipSome o depth content
  else if ← word? "None" then return
  else if ← take? ['(', ')'] then return
  else if ← atWordOf unsignedFloatWords then anyNumber
  else if ← name? then
    layout
    if ← startsWith '(' then skipGroup depth part
  else
    let c ← peek
    if c = '(' then skipGroup depth part
    else if c = '[' then
      let _ ← next
      skipItems ']' depth part
      let _ ← next
    else if c = '\x7b' then
      let _ ← next
      skipEntries depth part
      let _ ← next
    else if isDecimalDigit c || c = '+' || c = '-' || c = '.' then anyNumber
    else if c = '"' || c = 'r' then discard quotedText
    else if c = 'b' then
      if (← get).take 2 = ['b', '\''] then anyNumber else quotedBytes
    else if c = '\'' then discard quotedChar
    else stop (.unexpectedChar c)

/-- Takes a value, which may stand in parentheses that have been opened in front of it. -/
def skipWith (o : DocumentOptions) (depth : Nat) (part : Scan Unit)
    (content : (opened : Bool) → Scan Unit) (opened : Bool) : Scan Unit := do
  let shape ← if opened then ahead openedShape else pure .value
  match shape with
  | .fields => skipFields depth part
  | .items => skipItems ')' depth part
  | .value => skipPlain o depth part content

/-- Takes a value of any kind, nested to a depth at most. -/
def skipValue (o : DocumentOptions) : (depth : Nat) → (opened : Bool) → Scan Unit
  | 0 => skipWith o 0 (stop .tooDeep) (fun _ => stop .tooDeep)
  | 1 => skipWith o 1 (stop .tooDeep) (skipValue o 0)
  | depth + 2 => skipWith o (depth + 2) (skipValue o depth false) (skipValue o (depth + 1))

end Scan

end NodeScript
