import NodeScript.Numeric.Decimal
import NodeScript.OrderedMap
import NodeScript.Text.Quoted

/-!
Stored documents as trees, and their text. A value is a word, a number, text, a list, a table, or a
group in parentheses, which may have a name in front and holds either fields with names or items
without.

Values put into the tree of a document.
-/

namespace NodeScript

/-! ### Trees and their text -/

/-- A value of a stored document. -/
inductive Tree where
  | word (name : String)
  /-- A number by its text. -/
  | number (numeral : String)
  | text (value : String)
  | list (items : List Tree)
  | table (entries : List (Tree × Tree))
  | record (name : Option String) (fields : List (String × Tree))
  | tuple (name : Option String) (items : List Tree)
deriving Repr, Inhabited

/-- A line break followed by the indentation of a depth. -/
def lineBreak (depth : Nat) : List Char := '\n' :: List.replicate (4 * depth) ' '

/-- Written parts in brackets, each on a line of its own with a comma behind it. -/
def bracketedLines (opening closing : Char) (depth : Nat) (parts : List (List Char)) : List Char :=
  if parts.isEmpty then [opening, closing]
  else opening :: parts.flatMap (fun part => lineBreak (depth + 1) ++ part ++ [','])
    ++ lineBreak depth ++ [closing]

/-- Parts with a comma and a blank between them. -/
def inlineParts (parts : List (List Char)) : List Char := [',', ' '].intercalate parts

/-- Parts with a comma between them. -/
def tightParts (parts : List (List Char)) : List Char := [','].intercalate parts

/-- The name in front of a group. -/
def groupName (name : Option String) : List Char := (name.map String.toList).getD []

mutual

/-- The text of a tree over several lines, at a depth of indentation. -/
def Tree.prettyChars (depth : Nat) : Tree → List Char
  | .word name => name.toList
  | .number numeral => numeral.toList
  | .text value => (quoteStored value).toList
  | .list items => bracketedLines '[' ']' depth (Tree.prettyItems (depth + 1) items)
  | .table entries => bracketedLines '\x7b' '\x7d' depth (Tree.prettyEntries (depth + 1) entries)
  | .record name fields =>
    groupName name ++ bracketedLines '(' ')' depth (Tree.prettyFields (depth + 1) fields)
  | .tuple name items =>
    groupName name ++ '(' :: inlineParts (Tree.prettyItems depth items) ++ [')']

/-- The texts of the items of a list. -/
def Tree.prettyItems (depth : Nat) : List Tree → List (List Char)
  | [] => []
  | t :: rest => t.prettyChars depth :: Tree.prettyItems depth rest

/-- The texts of the entries of a table. -/
def Tree.prettyEntries (depth : Nat) : List (Tree × Tree) → List (List Char)
  | [] => []
  | (key, value) :: rest =>
    (key.prettyChars depth ++ ':' :: ' ' :: value.prettyChars depth)
      :: Tree.prettyEntries depth rest

/-- The texts of the fields of a record. -/
def Tree.prettyFields (depth : Nat) : List (String × Tree) → List (List Char)
  | [] => []
  | (name, value) :: rest =>
    (name.toList ++ ':' :: ' ' :: value.prettyChars depth) :: Tree.prettyFields depth rest

end

/-- The text of a tree over several lines. -/
def Tree.pretty (t : Tree) : String := String.ofList (t.prettyChars 0)

mutual

/-- The text of a tree without any blanks. -/
def Tree.compactChars : Tree → List Char
  | .word name => name.toList
  | .number numeral => numeral.toList
  | .text value => (quoteStored value).toList
  | .list items => '[' :: tightParts (Tree.compactItems items) ++ [']']
  | .table entries => '\x7b' :: tightParts (Tree.compactEntries entries) ++ ['\x7d']
  | .record name fields => groupName name ++ '(' :: tightParts (Tree.compactFields fields) ++ [')']
  | .tuple name items => groupName name ++ '(' :: tightParts (Tree.compactItems items) ++ [')']

/-- The texts of the items of a list. -/
def Tree.compactItems : List Tree → List (List Char)
  | [] => []
  | t :: rest => t.compactChars :: Tree.compactItems rest

/-- The texts of the entries of a table. -/
def Tree.compactEntries : List (Tree × Tree) → List (List Char)
  | [] => []
  | (key, value) :: rest =>
    (key.compactChars ++ ':' :: value.compactChars) :: Tree.compactEntries rest

/-- The texts of the fields of a record. -/
def Tree.compactFields : List (String × Tree) → List (List Char)
  | [] => []
  | (name, value) :: rest => (name.toList ++ ':' :: value.compactChars) :: Tree.compactFields rest

end

/-- The text of a tree without any blanks. -/
def Tree.compact (t : Tree) : String := String.ofList t.compactChars

/-! ### Values as trees -/

/-- A truth value. -/
def encodeBool (b : Bool) : Tree := .word (if b then "true" else "false")

/-- An integer. -/
def encodeInteger (n : Int) : Tree := .number (intText n)

/-- A floating point number. What no numeral denotes is a word, behind a sign a number. -/
def encodeReading (r : Reading) : Tree :=
  match r with
  | .nan false | .infinite false => .word (NumberStyle.stored.render r)
  | _ => .number (NumberStyle.stored.render r)

/-- A list. -/
def encodeList {α : Type} (item : α → Tree) (items : List α) : Tree := .list (items.map item)

/-- A value that may be missing. -/
def encodeOption {α : Type} (value : α → Tree) : Option α → Tree
  | none => .word "None"
  | some a => .tuple (some "Some") [value a]

/-- A table. -/
def encodeTable {κ ν : Type} (key : κ → Tree) (value : ν → Tree) (m : OrderedMap κ ν) : Tree :=
  .table (m.entries.map fun e => (key e.1, value e.2))

/-- A value that only wraps another. -/
def encodeWrapped (name : String) (inner : Tree) : Tree := .tuple (some name) [inner]

/-- A variant that holds one item. -/
def encodeVariant (name : String) (content : Tree) : Tree := .tuple (some name) [content]

/-- A record with a name. -/
def encodeRecord (name : String) (fields : List (String × Tree)) : Tree :=
  .record (some name) fields

end NodeScript
