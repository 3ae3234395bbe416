import NodeScript.Text.Hidden

/-!
Text in double quotes, in the two ways it is written: in generated code, where five characters are
escaped, and in stored documents and labels, where every character without a glyph of its own is
shown by its number.
-/

namespace NodeScript

/-- The digits of a natural in base sixteen, in lower case. -/
def hexDigits (n : Nat) : List Char := Nat.toDigits 16 n

/-- A character by its number. -/
def numberedChar (c : Char) : List Char :=
  '\\' :: 'u' :: '\x7b' :: hexDigits c.toNat ++ ['\x7d']

/-- A character of a stored document. Single quotes are escaped where `apostrophe` says so. -/
def escapeVisible (apostrophe : Bool) (c : Char) : List Char :=
  if c = '\x00' then ['\\', '0']
  else if c = '\t' then ['\\', 't']
  else if c = '\r' then ['\\', 'r']
  else if c = '\n' then ['\\', 'n']
  else if c = '"' then ['\\', '"']
  else if c = '\\' then ['\\', '\\']
  else if c = '\'' && apostrophe then ['\\', '\'']
  else if isHidden c then numberedChar c
  else [c]

/-- Text in quotes as stored documents hold it. -/
def quoteStored (text : String) : String :=
  String.ofList ('"' :: text.toList.flatMap (escapeVisible true) ++ ['"'])

/-- Text in quotes as labels show it. -/
def quoteLabel (text : String) : String :=
  String.ofList ('"' :: text.toList.flatMap (escapeVisible false) ++ ['"'])

/-- A character of a string literal in generated code. -/
def escapeLiteral (c : Char) : List Char :=
  if c = '"' then ['\\', '"']
  else if c = '\\' then ['\\', '\\']
  else if c = '\n' then ['\\', 'n']
  else if c = '\r' then ['\\', 'r']
  else if c = '\t' then ['\\', 't']
  else [c]

/-- A string literal of generated code. -/
def quoteLiteral (text : List Char) : List Char :=
  '"' :: text.flatMap escapeLiteral ++ ['"']

/-- The character that a letter behind a backslash stands for. -/
def unescapeLiteral? (c : Char) : Option Char :=
  if c = '"' then some '"'
  else if c = '\\' then some '\\'
  else if c = 'n' then some '\n'
  else if c = 'r' then some '\r'
  else if c = 't' then some '\t'
  else none

/-- Reads the inside of a string literal up to its closing quote: the text it stands for and what
follows the literal. A raw line break ends no literal. -/
def readLiteralBody : List Char → Option (List Char × List Char)
  | [] => none
  | '"' :: rest => some ([], rest)
  | '\\' :: c :: rest => do
    let meant ← unescapeLiteral? c
    let (text, after) ← readLiteralBody rest
    return (meant :: text, after)
  | c :: rest =>
    if c = '\\' || c = '\n' || c = '\r' then none
    else do
      let (text, after) ← readLiteralBody rest
      return (c :: text, after)

/-- Reads a string literal at the start of the text. -/
def readLiteral : List Char → Option (List Char × List Char)
  | '"' :: rest => readLiteralBody rest
  | _ => none

end NodeScript
