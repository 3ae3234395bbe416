import NodeScript.Shell.Lexer

/-!
Patterns for whole texts: a star stands for any text, a question mark for any character, and
brackets for a set of characters. A quoted character stands for itself.
-/

namespace NodeScript.Shell

/-- A part of a set of characters. -/
inductive CharRange where
  | between (first last : Char)
  | kind (holds : Char → Bool)

/-- Whether a character is in a range. -/
def CharRange.contains (c : Char) : CharRange → Bool
  | .between first last => first ≤ c && c ≤ last
  | .kind holds => holds c

/-- A set of characters, which may be given by those that are not in it. -/
structure CharSet where
  ranges : List CharRange
  inverted : Bool

/-- Whether a character is in a set. -/
def CharSet.contains (s : CharSet) (c : Char) : Bool :=
  s.ranges.any (·.contains c) != s.inverted

/-- Whether a character is printed with ink. -/
def isGraphic (c : Char) : Bool := '!' ≤ c && c ≤ '~'

/-- Whether a character is a blank or ends a line or page. -/
def isSpace (c : Char) : Bool := c == ' ' || ('\t' ≤ c && c ≤ '\r')

/-- The kinds of characters that have a name. -/
def namedKinds : List (String × (Char → Bool)) :=
  [("alpha", Char.isAlpha), ("digit", Char.isDigit), ("alnum", Char.isAlphanum),
    ("upper", Char.isUpper), ("lower", Char.isLower), ("space", isSpace),
    ("blank", fun c => c == ' ' || c == '\t'), ("punct", fun c => isGraphic c && !c.isAlphanum),
    ("print", fun c => c == ' ' || isGraphic c), ("graph", isGraphic),
    ("cntrl", fun c => c.toNat < 32 || c.toNat = 127),
    ("xdigit", fun c => c.isDigit || ('a' ≤ c && c ≤ 'f') || ('A' ≤ c && c ≤ 'F'))]

/-- The kind of characters whose name stands between colons and a bracket, and what is behind it. -/
def takeNamedKind? (text : Bytes) : Option ((Char → Bool) × Bytes) :=
  namedKinds.findSome? fun (name, holds) =>
    ((name ++ ":]").toList.isPrefixOf? text).map (holds, ·)

/-- The ranges up to the closing bracket, and what is behind it. The bracket is an element if it is
`first`. -/
def takeRanges : (budget : Bytes) → (first : Bool) → Bytes → Option (List CharRange × Bytes)
  | [], _, _ => none
  | _ :: budget, first, text =>
    let continueWith (range : CharRange) (rest : Bytes) : Option (List CharRange × Bytes) :=
      (takeRanges budget false rest).map fun (ranges, after) => (range :: ranges, after)
    match text with
    | [] => none
    | '[' :: ':' :: rest =>
      match takeNamedKind? rest with
      | some (holds, rest) => continueWith (.kind holds) rest
      | none => continueWith (.between '[' '[') (':' :: rest)
    | ']' :: rest =>
      if first then continueWith (.between ']' ']') rest else some ([], rest)
    | c :: '-' :: d :: rest =>
      if d = ']' then continueWith (.between c c) ('-' :: d :: rest)
      else continueWith (.between c d) rest
    | c :: rest => continueWith (.between c c) rest

/-- The set behind an opening bracket, with the signs that invert it, and what is behind the set. -/
def takeCharSet (inverting : List Char) (text : Bytes) : Option (CharSet × Bytes) :=
  let inverted := (text.head?.map inverting.contains).getD false
  let inside := if inverted then text.drop 1 else text
  (takeRanges (' ' :: inside) true inside).map fun (ranges, after) => (⟨ranges, inverted⟩, after)

/-- A part of a pattern. -/
inductive PatternPart where
  | anyText
  | anyChar
  | literal (c : Char)
  | oneOf (set : CharSet)

/-- A pattern. -/
abbrev Pattern := List PatternPart

/-- The parts of a pattern whose characters are quoted or not. -/
def readPattern : (budget : Nat) → List (Char × Bool) → Pattern
  | 0, _ => []
  | _, [] => []
  | budget + 1, (c, quoted) :: rest =>
    if quoted then .literal c :: readPattern budget rest
    else if c = '*' then .anyText :: readPattern budget rest
    else if c = '?' then .anyChar :: readPattern budget rest
    else if c = '\\' then
      match rest with
      | (d, _) :: more => .literal d :: readPattern budget more
      | [] => [.literal c]
    else if c = '[' then
      match takeCharSet ['!', '^'] (rest.map (·.1)) with
      | some (set, after) =>
        .oneOf set :: readPattern budget (rest.drop (rest.length - after.length))
      | none => .literal c :: readPattern budget rest
    else .literal c :: readPattern budget rest

/-- The pattern of characters that are quoted or not. -/
def patternOf (marked : List (Char × Bool)) : Pattern := readPattern marked.length marked

/-- The rests of a text, all of it first. -/
def restsOf : Bytes → List Bytes
  | [] => [[]]
  | c :: rest => (c :: rest) :: restsOf rest

namespace Pattern

/-- The rests of a text behind the prefixes that a pattern stands for. -/
def restsBehind : Pattern → Bytes → List Bytes
  | [], text => [text]
  | .anyText :: p, text => (restsOf text).flatMap (restsBehind p)
  | .anyChar :: p, text =>
    match text with
    | _ :: rest => restsBehind p rest
    | [] => []
  | .literal c :: p, text =>
    match text with
    | d :: rest => if c = d then restsBehind p rest else []
    | [] => []
  | .oneOf set :: p, text =>
    match text with
    | d :: rest => if set.contains d then restsBehind p rest else []
    | [] => []

/-- Whether a pattern stands for a text. -/
def matchesText (p : Pattern) (text : Bytes) : Bool := (p.restsBehind text).any List.isEmpty

/-- A text without the shortest or the longest prefix that a pattern stands for. -/
def dropPrefix (p : Pattern) (longest : Bool) (text : Bytes) : Bytes :=
  let lengths := (p.restsBehind text).map List.length
  match if longest then lengths.min? else lengths.max? with
  | some length => text.drop (text.length - length)
  | none => text

/-- A text without the shortest or the longest suffix that a pattern stands for. -/
def dropSuffix (p : Pattern) (longest : Bool) (text : Bytes) : Bytes :=
  let lengths := ((restsOf text).filter p.matchesText).map List.length
  match if longest then lengths.max? else lengths.min? with
  | some length => text.take (text.length - length)
  | none => text

end Pattern

end NodeScript.Shell
