import NodeScript.Document.Fault

/-!
Steps over the text of a stored document. A step takes something from the front of the text that is
left, or stops with a fault at the place that it has come to. White space and comments may stand
between any two parts of a document; names, words and signs are taken one by one.
-/

namespace NodeScript

/-- A step over the text of a document. -/
abbrev Scan (α : Type) := StateT (List Char) (Except PlacedFault) α

/-- The characters with the property Pattern_White_Space. -/
def layoutRanges : CodeRanges := [
  (0x9, 0xD), (0x20, 0x20), (0x85, 0x85), (0x200E, 0x200F), (0x2028, 0x2029)]

/-- Whether a character is white space between the parts of a document. -/
def isLayout (c : Char) : Bool := layoutRanges.holdsChar c

/-- What is being skipped between two parts. -/
inductive LayoutMode where
  | blank
  | lineComment
  /-- A comment inside as many others. -/
  | blockComment (depth : Nat)
deriving DecidableEq, Repr

/-- The text behind white space and comments. -/
def skipLayoutFrom : LayoutMode → List Char → Except PlacedFault (List Char)
  | .blank, '/' :: '/' :: rest => skipLayoutFrom .lineComment rest
  | .blank, '/' :: '*' :: rest => skipLayoutFrom (.blockComment 0) rest
  | .blank, '/' :: c :: rest => .error ⟨.unexpectedChar c, rest⟩
  | .blank, ['/'] => .error ⟨.unexpectedEnd, []⟩
  | .blank, c :: rest => if isLayout c then skipLayoutFrom .blank rest else .ok (c :: rest)
  | .blank, [] => .ok []
  | .lineComment, c :: rest =>
    if c = '\n' then skipLayoutFrom .blank rest else skipLayoutFrom .lineComment rest
  | .lineComment, [] => .ok []
  | .blockComment depth, '/' :: '*' :: rest => skipLayoutFrom (.blockComment (depth + 1)) rest
  | .blockComment 0, '*' :: '/' :: rest => skipLayoutFrom .blank rest
  | .blockComment (outer + 1), '*' :: '/' :: rest => skipLayoutFrom (.blockComment outer) rest
  | .blockComment depth, _ :: rest => skipLayoutFrom (.blockComment depth) rest
  | .blockComment _, [] => .error ⟨.unclosedComment, []⟩

namespace Scan

/-- Stops at the text at hand. -/
def stop {α : Type} (cause : DocumentFault) : Scan α := fun text => .error ⟨cause, text⟩

/-- Names the record that a field belongs to, in a fault that does not name it. -/
def inOwner {α : Type} (owner : String) (step : Scan α) : Scan α := fun text =>
  match step text with
  | .ok result => .ok result
  | .error fault => .error ⟨fault.cause.inOwner owner, fault.rest⟩

/-- Takes a step if it can be taken; otherwise nothing is taken. -/
def attempt (step : Scan Unit) : Scan Unit := fun text =>
  match step text with
  | .ok result => .ok result
  | .error _ => .ok ((), text)

/-- Skips white space and comments. -/
def layout : Scan Unit := fun text =>
  match skipLayoutFrom .blank text with
  | .ok rest => .ok ((), rest)
  | .error fault => .error fault

/-- The next character, which has to be there. It is not taken. -/
def peek : Scan Char := fun text =>
  match text with
  | [] => .error ⟨.unexpectedEnd, []⟩
  | c :: _ => .ok (c, text)

/-- Takes a character, which has to be there. -/
def next : Scan Char := fun text =>
  match text with
  | [] => .error ⟨.unexpectedEnd, []⟩
  | c :: rest => .ok (c, rest)

/-- Whether the text goes on with a character. -/
def startsWith (c : Char) : Scan Bool := fun text => .ok (text.head? == some c, text)

/-- Takes these characters if the text goes on with them. -/
def take? (wanted : List Char) : Scan Bool := fun text =>
  match wanted.isPrefixOf? text with
  | some rest => .ok (true, rest)
  | none => .ok (false, text)

/-- Takes a character that has to stand here. -/
def expect (c : Char) (otherwise : DocumentFault) : Scan Unit := do
  if !(← take? [c]) then stop otherwise

/-- Takes characters as long as they are of a kind. -/
def takeWhile (kind : Char → Bool) : Scan (List Char) := fun text =>
  .ok (text.takeWhile kind, text.dropWhile kind)

/-- Takes a comma with white space around it, if there is one. -/
def comma : Scan Bool := do
  layout
  let found ← take? [',']
  if found then layout
  return found

/-- Whether the text ends or goes on with a character that no name holds. -/
def wordEnds (text : List Char) : Bool := text.head?.all fun c => !isNameChar c

/-- Whether the text goes on with a word. -/
def atWord (word : String) : Scan Bool := fun text =>
  .ok ((word.toList.isPrefixOf? text).any wordEnds, text)

/-- Takes a word if the text goes on with it. -/
def word? (word : String) : Scan Bool := fun text =>
  match word.toList.isPrefixOf? text with
  | some rest => if wordEnds rest then .ok (true, rest) else .ok (false, text)
  | none => .ok (false, text)

/-- What quoted text may start with that looks like the start of a name. -/
def quotedStarts : List String := ["b\"", "b'", "br#", "br\"", "r\"", "r#\"", "r##"]

/-- Whether a text starts with quoted text that looks like a name. -/
def startsQuoted (text : List Char) : Bool := quotedStarts.any (·.toList.isPrefixOf text)

/-- Takes a name. One that starts with a mark may hold points and signs. -/
def name : Scan String := do
  let first ← peek
  let text ← get
  let marked := text.takeWhile isMarkedNameChar
  if !isNameStart first then
    if marked.isEmpty then stop .expectedName else stop (.unmarkedName (String.ofList marked))
  else if startsQuoted text then stop .expectedName
  else
    match ['r', '#'].isPrefixOf? text with
    | some inside =>
      let found := inside.takeWhile isMarkedNameChar
      if found.isEmpty then stop .expectedName
      set (inside.dropWhile isMarkedNameChar)
      return String.ofList found
    | none =>
      let plain := text.takeWhile isNameChar
      if plain.length < marked.length then stop (.unmarkedName (String.ofList marked))
      set (text.dropWhile isNameChar)
      return String.ofList plain

/-- Takes a name if there is one, and says whether there was. -/
def name? : Scan Bool := fun text =>
  if startsQuoted text then .ok (false, text)
  else
    match text with
    | 'r' :: '#' :: inside =>
      let rest := inside.dropWhile isMarkedNameChar
      if rest.length < inside.length then .ok (true, rest) else .ok (false, text)
    | c :: rest =>
      if isNameStart c then .ok (true, rest.dropWhile isNameChar) else .ok (false, text)
    | [] => .ok (false, [])

/-- Takes parts with commas between them, and perhaps behind the last, up to a closing sign, which
is left. `separated` says whether a part may follow. A part takes a character of `budget` at
least. -/
def partsWithin {σ : Type} (closing : Char) (part : σ → Scan σ) :
    (budget : List Char) → (separated : Bool) → σ → Scan σ
  | [], _, state => return state
  | _ :: budget, separated, state => do
    layout
    if ← startsWith closing then return state
    else if !separated then stop .expectedComma
    else
      let state ← part state
      let separated ← comma
      partsWithin closing part budget separated state

/-- Takes parts with commas between them up to a closing sign, which is left. Every part goes on
from what the part before it has come to. -/
def parts {σ : Type} (closing : Char) (part : σ → Scan σ) (start : σ) : Scan σ := fun text =>
  partsWithin closing part (closing :: text) true start text

/-- Takes the colon between a name or key and its value. -/
def colon : Scan Unit := do
  layout
  expect ':' .expectedColon
  layout

end Scan

end NodeScript
