import NodeScript.Numeric.Decimal
import NodeScript.OrderedMap
import NodeScript.Text.Quoted
import NodeScript.Uuid

/-!
JSON values and their text.

What other tools are told, as JSON: a value of a type with a report may stand where JSON is
expected.
-/

namespace NodeScript

/-! ### JSON -/

/-- A JSON value. Objects keep the order of their fields. -/
inductive JsonValue where
  | null
  | bool (value : Bool)
  | integer (value : Int)
  | text (value : String)
  | array (items : List JsonValue)
  | object (fields : List (String × JsonValue))
deriving Repr, Inhabited

/-- An object with further fields behind its own. -/
def JsonValue.with : JsonValue → List (String × JsonValue) → JsonValue
  | .object fields, more => .object (fields ++ more)
  | other, _ => other

mutual

/-- A value with its texts replaced. The names of fields stay. -/
def JsonValue.mapText (f : String → String) : JsonValue → JsonValue
  | .text value => .text (f value)
  | .array items => .array (JsonValue.mapTextItems f items)
  | .object fields => .object (JsonValue.mapTextFields f fields)
  | other => other

/-- The items of an array with their texts replaced. -/
def JsonValue.mapTextItems (f : String → String) : List JsonValue → List JsonValue
  | [] => []
  | item :: rest => item.mapText f :: JsonValue.mapTextItems f rest

/-- The fields of an object with their texts replaced. -/
def JsonValue.mapTextFields (f : String → String) :
    List (String × JsonValue) → List (String × JsonValue)
  | [] => []
  | (name, value) :: rest => (name, value.mapText f) :: JsonValue.mapTextFields f rest

end

/-- Fills up a hexadecimal number to four digits. -/
def fourHexDigits (n : Nat) : List Char :=
  let digits := hexDigits n
  List.replicate (4 - digits.length) '0' ++ digits

/-- A character of a JSON text. -/
def escapeJson (c : Char) : List Char :=
  if c = '"' then ['\\', '"']
  else if c = '\\' then ['\\', '\\']
  else if c = '\x08' then ['\\', 'b']
  else if c = '\t' then ['\\', 't']
  else if c = '\n' then ['\\', 'n']
  else if c = '\x0c' then ['\\', 'f']
  else if c = '\r' then ['\\', 'r']
  else if c.toNat < 0x20 then '\\' :: 'u' :: fourHexDigits c.toNat
  else [c]

/-- Text in quotes as JSON holds it. -/
def quoteJson (text : String) : List Char := '"' :: text.toList.flatMap escapeJson ++ ['"']

/-- The start of a line at a depth. -/
def jsonIndent (depth : Nat) : List Char := '\n' :: List.replicate (2 * depth) ' '

/-- Parts between brackets, each on a line of its own. -/
def jsonLines (opening closing : Char) (depth : Nat) (parts : List (List Char)) : List Char :=
  if parts.isEmpty then [opening, closing]
  else opening :: [','].intercalate (parts.map fun part => jsonIndent (depth + 1) ++ part)
    ++ jsonIndent depth ++ [closing]

/-- The text of a truth value. -/
def jsonBool (b : Bool) : List Char := (if b then "true" else "false").toList

mutual

/-- The text of a value over several lines, at a depth of indentation. -/
def JsonValue.prettyChars (depth : Nat) : JsonValue → List Char
  | .null => "null".toList
  | .bool value => jsonBool value
  | .integer value => (intText value).toList
  | .text value => quoteJson value
  | .array items => jsonLines '[' ']' depth (JsonValue.prettyItems (depth + 1) items)
  | .object fields => jsonLines '\x7b' '\x7d' depth (JsonValue.prettyFields (depth + 1) fields)

/-- The texts of the items of an array. -/
def JsonValue.prettyItems (depth : Nat) : List JsonValue → List (List Char)
  | [] => []
  | item :: rest => item.prettyChars depth :: JsonValue.prettyItems depth rest

/-- The texts of the fields of an object. -/
def JsonValue.prettyFields (depth : Nat) : List (String × JsonValue) → List (List Char)
  | [] => []
  | (name, value) :: rest =>
    (quoteJson name ++ ':' :: ' ' :: value.prettyChars depth) :: JsonValue.prettyFields depth rest

end

/-- The text of a value over several lines. -/
def JsonValue.pretty (v : JsonValue) : String := String.ofList (v.prettyChars 0)

mutual

/-- The text of a value without any blanks. -/
def JsonValue.compactChars : JsonValue → List Char
  | .null => "null".toList
  | .bool value => jsonBool value
  | .integer value => (intText value).toList
  | .text value => quoteJson value
  | .array items => '[' :: [','].intercalate (JsonValue.compactItems items) ++ [']']
  | .object fields => '\x7b' :: [','].intercalate (JsonValue.compactFields fields) ++ ['\x7d']

/-- The texts of the items of an array. -/
def JsonValue.compactItems : List JsonValue → List (List Char)
  | [] => []
  | item :: rest => item.compactChars :: JsonValue.compactItems rest

/-- The texts of the fields of an object. -/
def JsonValue.compactFields : List (String × JsonValue) → List (List Char)
  | [] => []
  | (name, value) :: rest =>
    (quoteJson name ++ ':' :: value.compactChars) :: JsonValue.compactFields rest

end

/-- The text of a value without any blanks. -/
def JsonValue.compact (v : JsonValue) : String := String.ofList v.compactChars

/-! ### Reports -/

/-- What other tools are told about the values of a type. -/
class Reported (α : Type) where
  report : α → JsonValue

export Reported (report)

instance {α : Type} [Reported α] (a : α) : CoeT α a JsonValue := ⟨report a⟩

instance : Reported JsonValue := ⟨id⟩

instance : Reported Bool := ⟨.bool⟩

instance : Reported Int := ⟨.integer⟩

instance : Reported Nat := ⟨fun n => .integer n⟩

instance : Reported Int64 := ⟨fun n => .integer n.toInt⟩

instance : Reported UInt8 := ⟨fun n => .integer n.toNat⟩

instance : Reported String := ⟨.text⟩

instance {α : Type} [Reported α] : Reported (List α) := ⟨fun items => .array (items.map report)⟩

instance {α : Type} [Reported α] : Reported (Option α) where
  report
    | some a => report a
    | none => .null

instance {α β : Type} [Reported α] [Reported β] : Reported (α × β) :=
  ⟨fun pair => .array [report pair.1, report pair.2]⟩

instance {κ ν : Type} [DecidableEq κ] [Reported κ] [Reported ν] : Reported (OrderedMap κ ν) :=
  ⟨fun m => report m.entries⟩

/-! Numbers that need not be whole are told as text, for which every number has a numeral. -/

instance : Reported Single := ⟨fun x => .text x.text⟩

instance : Reported Double := ⟨fun x => .text x.text⟩

instance : Reported Uuid := ⟨fun u => .text u.text⟩

instance : Reported NodeId := ⟨fun id => report id.uuid⟩

instance : Reported PortId := ⟨fun id => report id.uuid⟩

instance : Reported EdgeId := ⟨fun id => report id.uuid⟩

instance : Reported VariableId := ⟨fun id => report id.uuid⟩

end NodeScript
