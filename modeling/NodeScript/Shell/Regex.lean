import NodeScript.Shell.Pattern

/-!
Regular expressions for lines of text, in the two spellings that tools know: in the extended one the
signs for groups, repetition and choice stand alone, and in the basic one behind a backslash.
-/

namespace NodeScript.Shell

/-- A regular expression. -/
inductive Regex where
  | empty
  | char (set : CharSet)
  | lineStart
  | lineEnd
  | wordStart
  | wordEnd
  | wordEdge
  | both (first second : Regex)
  | either (first second : Regex)
  | repeated (body : Regex) (least : Nat) (most : Option Nat)
  | group (number : Nat) (body : Regex)
  /-- The text of a group once more. -/
  | again (number : Nat)

/-- A place in a line, with the texts of the groups so far. -/
structure Cursor where
  before : Option Char
  rest : Bytes
  groups : List (Nat × Bytes)

namespace Cursor

/-- The places behind a text that stands here; letter case may be left aside. -/
def takeText (anyCase : Bool) (c : Cursor) : Bytes → Option Cursor
  | [] => some c
  | wanted :: others =>
    match c.rest with
    | found :: rest =>
      if found = wanted || (anyCase && found.toLower = wanted.toLower) then
        takeText anyCase { c with before := some found, rest } others
      else none
    | [] => none

/-- Whether a word ends or starts here. -/
def atEdge (c : Cursor) : Bool × Bool :=
  let inWord (d : Option Char) : Bool := (d.map isVariableChar).getD false
  (inWord c.before && !inWord c.rest.head?, !inWord c.before && inWord c.rest.head?)

end Cursor

/-- The places behind repetitions, those behind more of them first. -/
def repeatedly (step : Cursor → List Cursor) :
    (budget : Nat) → (least : Nat) → (most : Option Nat) → Cursor → List Cursor
  | 0, _, _, c => [c]
  | budget + 1, least, most, c =>
    let further :=
      if most = some 0 then []
      else
        ((step c).filter fun d => d.rest.length < c.rest.length).flatMap
          (repeatedly step budget (least - 1) (most.map (· - 1)))
    if least = 0 then further ++ [c]
    else if further.isEmpty then (step c).filter fun d => d.rest.length = c.rest.length
    else further

/-- The places behind what an expression stands for, the preferred ones first. -/
def Regex.ends (anyCase : Bool) : Regex → Cursor → List Cursor
  | .empty, c => [c]
  | .char set, c =>
    match c.rest with
    | d :: rest =>
      if set.contains d || (anyCase && (set.contains d.toLower || set.contains d.toUpper)) then
        [{ c with before := some d, rest }]
      else []
    | [] => []
  | .lineStart, c => if c.before.isNone then [c] else []
  | .lineEnd, c => if c.rest.isEmpty then [c] else []
  | .wordStart, c => if c.atEdge.2 then [c] else []
  | .wordEnd, c => if c.atEdge.1 then [c] else []
  | .wordEdge, c => if c.atEdge.1 || c.atEdge.2 then [c] else []
  | .both first second, c => (first.ends anyCase c).flatMap fun d => second.ends anyCase d
  | .either first second, c => first.ends anyCase c ++ second.ends anyCase c
  | .repeated body least most, c =>
    repeatedly (fun d => body.ends anyCase d) (c.rest.length + least + 1) least most c
  | .group number body, c =>
    (body.ends anyCase c).map fun d =>
      { d with groups := (number, c.rest.take (c.rest.length - d.rest.length)) :: d.groups }
  | .again number, c => (c.takeText anyCase ((c.groups.lookup number).getD [])).toList

/-- What an expression stands for in a line: the text before it, its own text, what is behind it,
and the texts of its groups. -/
structure Found where
  before : Bytes
  text : Bytes
  after : Bytes
  groups : List (Nat × Bytes)

/-- The first and longest text that an expression stands for from a place on. -/
def Regex.find? (r : Regex) (anyCase : Bool) : (before : Option Char) → Bytes → Option Found
  | before, text =>
    let longest := (r.ends anyCase ⟨before, text, []⟩).foldl (fun best c =>
      match best with
      | some (b : Cursor) => if c.rest.length < b.rest.length then some c else some b
      | none => some c) none
    match longest, text with
    | some c, _ =>
      some ⟨[], text.take (text.length - c.rest.length), c.rest, c.groups⟩
    | none, [] => none
    | none, d :: rest =>
      (find? r anyCase (some d) rest).map fun found => { found with before := d :: found.before }

/-- The texts that an expression stands for in a line, one behind the other. No empty one stands
`behind` another at the same place. -/
def Regex.findAll (r : Regex) (anyCase : Bool) :
    (budget : Nat) → (behind : Bool) → (before : Option Char) → Bytes → List Found
  | 0, _, _, _ => []
  | budget + 1, behind, before, text =>
    match r.find? anyCase before text with
    | none => []
    | some found =>
      if !found.text.isEmpty then
        found :: findAll r anyCase budget true found.text.getLast? found.after
      else
        let shown := if behind && found.before.isEmpty then [] else [found]
        match found.after with
        | [] => shown
        | c :: rest =>
          let carried := if shown.isEmpty then found.before ++ [c] else [c]
          match findAll r anyCase budget false (some c) rest with
          | next :: others => shown ++ { next with before := carried ++ next.before } :: others
          | [] => shown

/-- A sign of an expression. -/
inductive RegexToken where
  | char (set : CharSet)
  | lineStart | lineEnd
  | edge (e : Regex)
  | opening | closing | choice
  | repetition (least : Nat) (most : Option Nat)
  | again (number : Nat)

/-- The set of a single character. -/
def CharSet.single (c : Char) : CharSet := ⟨[.between c c], false⟩

/-- The set of all characters. -/
def CharSet.all : CharSet := ⟨[], true⟩

/-- The bounds of a repetition in braces, and what is behind them. -/
def takeBounds (extended : Bool) (text : Bytes) : Option (RegexToken × Bytes) :=
  let closing : Bytes := if extended then ['\x7d'] else ['\\', '\x7d']
  let least := text.takeWhile Char.isDigit
  let rest := text.drop least.length
  match closing.isPrefixOf? rest with
  | some after => some (.repetition (digitsValue least) (some (digitsValue least)), after)
  | none =>
    match rest with
    | ',' :: rest =>
      let most := rest.takeWhile Char.isDigit
      (closing.isPrefixOf? (rest.drop most.length)).map fun after =>
        (.repetition (digitsValue least) (if most.isEmpty then none else some (digitsValue most)),
          after)
    | _ => none

/-- The sign that a letter behind a backslash stands for in both spellings. -/
def escapedToken (c : Char) : RegexToken :=
  match c with
  | 'n' => .char (.single '\n')
  | 't' => .char (.single '\t')
  | 'w' => .char ⟨[.kind isVariableChar], false⟩
  | 'W' => .char ⟨[.kind isVariableChar], true⟩
  | 's' => .char ⟨[.kind isSpace], false⟩
  | 'S' => .char ⟨[.kind isSpace], true⟩
  | '<' => .edge .wordStart
  | '>' => .edge .wordEnd
  | 'b' => .edge .wordEdge
  | c => if '1' ≤ c && c ≤ '9' then .again (c.toNat - '0'.toNat) else .char (.single c)

/-- The sign for a character that groups, repeats or chooses, if it is one. -/
def groupingToken? (c : Char) : Option RegexToken :=
  match c with
  | '(' => some .opening
  | ')' => some .closing
  | '|' => some .choice
  | '+' => some (.repetition 1 none)
  | '?' => some (.repetition 0 (some 1))
  | _ => none

/-- The signs of an expression. -/
def readRegex (extended : Bool) : (budget : Bytes) → (start : Bool) → Bytes →
    Option (List RegexToken)
  | [], _, _ => some []
  | _ :: budget, start, text =>
    let continueWith (token : RegexToken) (rest : Bytes) : Option (List RegexToken) :=
      let next := match token with
        | .opening => true
        | .choice => true
        | .lineStart => !extended
        | _ => false
      (readRegex extended budget next rest).map (token :: ·)
    match text with
    | [] => some []
    | '\\' :: c :: rest =>
      if !extended && c = '\x7b' then do
        let (token, after) ← takeBounds false rest
        continueWith token after
      else
        match if extended then none else groupingToken? c with
        | some token => continueWith token rest
        | none => continueWith (escapedToken c) rest
    | '[' :: rest => do
      let (set, after) ← takeCharSet ['^'] rest
      continueWith (.char set) after
    | '.' :: rest => continueWith (.char .all) rest
    | '*' :: rest =>
      if start && !extended then continueWith (.char (.single '*')) rest
      else continueWith (.repetition 0 none) rest
    | '^' :: rest =>
      if start || extended then continueWith .lineStart rest
      else continueWith (.char (.single '^')) rest
    | '$' :: rest =>
      if extended || rest.isEmpty || ["\\)", "\\|"].any (·.toList.isPrefixOf rest) then
        continueWith .lineEnd rest
      else continueWith (.char (.single '$')) rest
    | '\x7b' :: rest =>
      match if extended then takeBounds true rest else none with
      | some (token, after) => continueWith token after
      | none => continueWith (.char (.single '\x7b')) rest
    | c :: rest =>
      match if extended then groupingToken? c else none with
      | some token => continueWith token rest
      | none => continueWith (.char (.single c)) rest

/-- An expression that is being read: the choices and the parts before the last one, and the last
one, which repetitions belong to. -/
structure RegexSoFar where
  choices : Option Regex
  before : Regex
  last : Regex

namespace RegexSoFar

/-- Nothing has been read. -/
def start : RegexSoFar := ⟨none, .empty, .empty⟩

/-- Adds a part. -/
def add (s : RegexSoFar) (part : Regex) : RegexSoFar :=
  { s with before := .both s.before s.last, last := part }

/-- What has been read as an expression. -/
def whole (s : RegexSoFar) : Regex :=
  match s.choices with
  | some choices => .either choices (.both s.before s.last)
  | none => .both s.before s.last

end RegexSoFar

/-- The expression of signs, up to the end of a group. `number` is the number of the next group. -/
def parseRegex : (budget : List RegexToken) → (number : Nat) → RegexSoFar → List RegexToken →
    Option (Regex × Nat × List RegexToken)
  | [], _, _, _ => none
  | _ :: budget, number, s, tokens =>
    match tokens with
    | [] => some (s.whole, number, [])
    | .closing :: rest => some (s.whole, number, rest)
    | .opening :: rest => do
      let (inside, next, rest) ← parseRegex budget (number + 1) .start rest
      parseRegex budget next (s.add (.group number inside)) rest
    | .choice :: rest => parseRegex budget number ⟨some s.whole, .empty, .empty⟩ rest
    | .repetition least most :: rest =>
      parseRegex budget number { s with last := .repeated s.last least most } rest
    | .char set :: rest => parseRegex budget number (s.add (.char set)) rest
    | .lineStart :: rest => parseRegex budget number (s.add .lineStart) rest
    | .lineEnd :: rest => parseRegex budget number (s.add .lineEnd) rest
    | .edge e :: rest => parseRegex budget number (s.add e) rest
    | .again n :: rest => parseRegex budget number (s.add (.again n)) rest

/-- The expression of a text. -/
def regexOf? (extended : Bool) (text : Bytes) : Option Regex := do
  let tokens ← readRegex extended text true text
  let (regex, _, rest) ← parseRegex (.closing :: tokens) 1 .start tokens
  if rest.isEmpty then return regex else none

/-- The expression that stands for a text itself. -/
def literalRegex (text : Bytes) : Regex :=
  text.foldl (fun r c => .both r (.char (.single c))) .empty

end NodeScript.Shell
