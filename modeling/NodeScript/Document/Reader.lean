import NodeScript.Document.Skip
import NodeScript.OrderedMap

/-!
Readers of the values that a document holds. A reader knows what kind of value it wants, so it takes
the text as it comes: a name that may be left out, a field that is missing or that nobody asked for,
a value that stands without its wrapper. Readers of records and variants are put together from those
of their fields and contents.
-/

namespace NodeScript

/-- Where in a document a value is read. -/
structure ReadContext where
  options : DocumentOptions
  /-- How many levels values may be nested from here on. -/
  depth : Nat
  /-- The parentheses of the value have been opened in front of it, and are closed behind it. -/
  opened : Bool

/-- The place of a value that is so many levels further down. -/
def ReadContext.below (c : ReadContext) (levels : Nat) (opened : Bool) : ReadContext :=
  { c with depth := c.depth - levels, opened }

/-- The place of a part of a group, list or table. -/
def ReadContext.part (c : ReadContext) : ReadContext := c.below 2 false

/-- Reads a value of a document. -/
abbrev Reader (α : Type) := ReadContext → Scan α

namespace Reader

variable {α β γ κ ν ρ : Type}

/-- Reads a value and changes it. -/
def map (change : α → β) (value : Reader α) : Reader β := fun c => change <$> value c

/-- Reads a value that may be refused. -/
def refine (check : α → Except String β) (value : Reader α) : Reader β := fun c => do
  match check (← value c) with
  | .ok checked => return checked
  | .error message => Scan.stop (.refused message)

/-- Reads text. -/
def text : Reader String := fun _ => Scan.quotedText

/-- Reads a truth value. -/
def bool : Reader Bool := fun _ => do
  if ← Scan.word? "true" then return true
  else if ← Scan.word? "false" then return false
  else Scan.stop .expectedBool

/-- Reads an integer of a width. -/
def integer (width : IntegerWidth) : Reader Int := fun _ => Scan.integer (.ofWidth width)

/-- Reads a 32-bit floating point number. -/
def single : Reader Single := fun _ => FloatText.toSingle <$> Scan.floatOfWidth .single

/-- Reads a 64-bit floating point number. -/
def double : Reader Double := fun _ => FloatText.toDouble <$> Scan.floatOfWidth .double

/-- Reads a list. -/
def list (item : Reader α) : Reader (List α) := fun c => do
  Scan.expect '[' .expectedList
  let items ← Scan.parts ']' (fun items => return (← item c.part) :: items) []
  let _ ← Scan.next
  return items.reverse

/-- Reads an entry of a table. -/
def entry (key : Reader κ) (value : Reader ν) : Reader (κ × ν) := fun c => do
  let k ← key c
  Scan.colon
  let v ← value c
  return (k, v)

/-- Reads a table; of several entries with one key the last value counts. -/
def table [DecidableEq κ] (key : Reader κ) (value : Reader ν) : Reader (OrderedMap κ ν) :=
  fun c => do
    Scan.expect '\x7b' .expectedTable
    let entries ← Scan.parts '\x7d'
      (fun entries => return (← entry key value c.part) :: entries) []
    let _ ← Scan.next
    return .ofList entries.reverse

/-- Reads the item of a group that has so many in front of it, if items have commas behind them, and
says whether this one has. `expected` says how many items the group has. -/
def item (expected : String) (before : Nat) (separated : Bool) (value : Reader α) :
    Reader (α × Bool) := fun c => do
  Scan.layout
  if ← Scan.startsWith ')' then Scan.stop (.differentLength expected before)
  else if !separated then Scan.stop .expectedComma
  else
    let v ← value c
    let separated ← Scan.comma
    return (v, separated)

/-- Reads what stands in parentheses, which may have been opened in front of it. -/
def inParentheses (otherwise : DocumentFault) (inside : Scan α) : Reader α := fun c => do
  if !c.opened then Scan.expect '(' otherwise
  let value ← inside
  Scan.layout
  if !c.opened then Scan.expect ')' .expectedGroupEnd
  return value

/-- Reads a group of two items. -/
def pair (expected : String) (first : Reader α) (second : Reader β) : Reader (α × β) := fun c =>
  inParentheses .expectedGroup (do
    let (a, separated) ← item expected 0 true first c.part
    let (b, _) ← item expected 1 separated second c.part
    return (a, b)) c

/-- Reads a group of three items. -/
def triple (expected : String) (first : Reader α) (second : Reader β) (third : Reader γ) :
    Reader (α × β × γ) := fun c =>
  inParentheses .expectedGroup (do
    let (a, separated) ← item expected 0 true first c.part
    let (b, separated) ← item expected 1 separated second c.part
    let (d, _) ← item expected 2 separated third c.part
    return (a, b, d)) c

/-- Reads a value that may be missing. -/
def option (value : Reader α) : Reader (Option α) := fun c => do
  if ← Scan.word? "None" then return none
  else
    let named ← Scan.word? "Some"
    if named then Scan.layout
    if ← (if named then Scan.take? ['('] else pure false) then
      Scan.layout
      let v ← value (c.below 1 c.options.unwrapVariantNewtypes)
      let _ ← Scan.comma
      Scan.expect ')' .expectedGroupEnd
      return some v
    else if c.options.implicitSome then
      let v ← value (c.below 1 false)
      return some v
    else Scan.stop .expectedOption

/-- Takes the name in front of a record, which may be left out. -/
def recordName (o : DocumentOptions) (name : String) : Scan Unit := fun text =>
  if Scan.wordEnds text then
    if o.explicitStructNames then .error ⟨.expectedNameOf name, text⟩ else .ok ((), text)
  else
    match Scan.name text with
    | .error _ => .error ⟨.expectedGroupOf name, text⟩
    | .ok (found, rest) =>
      if found = name then .ok ((), rest) else .error ⟨.differentName name found, rest⟩

/-- Reads a value that only wraps another. -/
def wrapped (name : String) (value : Reader α) : Reader α := fun c => do
  if c.options.unwrapNewtypes || c.opened then value (c.below 1 false)
  else
    recordName c.options name
    Scan.layout
    Scan.expect '(' (.expectedGroupOf name)
    Scan.layout
    let v ← value (c.below 1 false)
    let _ ← Scan.comma
    Scan.expect ')' .expectedGroupEnd
    return v

/-- A field of records that are read into a standard one: its value is put in. -/
structure Field (ρ : Type) where
  name : String
  /-- Whether the field may not be missing. -/
  needed : Bool
  put : Reader (ρ → ρ)

/-- A field that has to be there. -/
def Field.required (name : String) (value : Reader α) (put : α → ρ → ρ) : Field ρ :=
  ⟨name, true, value.map put⟩

/-- A field that keeps its standard value when it is missing. -/
def Field.optional (name : String) (value : Reader α) (put : α → ρ → ρ) : Field ρ :=
  ⟨name, false, value.map put⟩

/-- Reads a field of a record and puts it in, behind those of the names `seen`. A field that the
record does not have is skipped. -/
def field (fields : List (Field ρ)) (seen : List String) (record : ρ) : Reader (List String × ρ) :=
  fun c => do
    let name ← Scan.name
    match fields.find? (·.name = name) with
    | none =>
      Scan.colon
      Scan.skipValue c.options c.depth false
      return (seen, record)
    | some f =>
      if seen.contains name then Scan.stop (.duplicateField name none)
      Scan.colon
      let put ← f.put c
      return (name :: seen, put record)

/-- Reads the fields of a record up to the closing parenthesis, which is left. -/
def fields (fields : List (Field ρ)) (standard : ρ) : Reader ρ := fun c => do
  let (seen, record) ← Scan.parts ')'
    (fun (seen, record) => field fields seen record c.part) ([], standard)
  match fields.find? fun f => f.needed && !seen.contains f.name with
  | some f => Scan.stop (.missingField f.name none)
  | none => return record

/-- Reads a record with a name. -/
def record (name : String) (standard : ρ) (known : List (Field ρ)) : Reader ρ := fun c => do
  if !c.opened then recordName c.options name
  Scan.layout
  let inside := fields known standard c
  inParentheses (.expectedGroupOf name) (if c.opened then inside else inside.inOwner name) c

/-- What stands behind the name of a variant. -/
inductive Content (α : Type) where
  /-- Nothing; the variant is a value by itself. -/
  | nothing (value : α)
  /-- A value in parentheses. -/
  | value (read : Reader α)
  /-- Fields in parentheses. -/
  | fields (read : Reader α)

/-- Reads what stands behind the name of a variant. -/
def content (variant : String) : Content α → Reader α
  | .nothing value => fun _ => return value
  | .value read => fun c => do
    Scan.layout
    Scan.expect '(' .expectedGroup
    Scan.layout
    let v ← (read (c.below 1 c.options.unwrapVariantNewtypes)).inOwner variant
    let _ ← Scan.comma
    Scan.expect ')' .expectedGroupEnd
    return v
  | .fields read => fun c => do
    Scan.layout
    (inParentheses .expectedGroup (read c) c).inOwner variant

/-- Reads one of the variants of a type. -/
def variant (owner : String) (cases : List (String × Content α)) : Reader α := fun c => do
  Scan.layout
  let name ← Scan.name
  match cases.lookup name with
  | some inside => content name inside (c.below 1 false)
  | none => Scan.stop (.unknownVariant name (cases.map (·.1)) owner)

/-- Reads one of the variants of a type that hold nothing. -/
def plainVariant (owner : String) (all : List α) (name : α → String) : Reader α :=
  variant owner (all.map fun value => (name value, .nothing value))

end Reader

/-- Reads a text that holds one value. -/
def readDocument {α : Type} (value : Reader α) (text : String) : Except ReadError α :=
  let document : Scan α := do
    let options ← Scan.options
    let v ← value ⟨options, Scan.nestingLimit, false⟩
    Scan.layout
    if !(← get).isEmpty then Scan.stop .trailingText
    return v
  match document text.toList with
  | .ok (v, _) => .ok v
  | .error fault => .error ⟨placeOf text.toList fault.rest, fault.cause⟩

end NodeScript
