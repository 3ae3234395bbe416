import NodeScript.Numeric.Decimal
import NodeScript.Shell.Syntax

/-!
The words and signs of a script. A quote or bracket that is not closed is a fault at the place where
the script would be read on.
-/

namespace NodeScript.Shell

/-- A word or sign of a script. -/
inductive Token where
  | word (word : Word)
  /-- A sign, or the end of a line. -/
  | sign (sign : String)
  /-- The number of a descriptor in front of a redirection. -/
  | descriptor (number : Nat)
  /-- Text that stands below the line of its redirection. -/
  | below (content : Word)
  | fault (message : String)
deriving Inhabited

/-- Whether a character may start the name of a variable. -/
def isVariableStart (c : Char) : Bool := c.isAlpha || c == '_'

/-- Whether a character may stand in the name of a variable. -/
def isVariableChar (c : Char) : Bool := c.isAlphanum || c == '_'

/-- Whether a character ends a word. -/
def endsWord (c : Char) : Bool :=
  c == ' ' || c == '\t' || c == '\n' || c == ';' || c == '&' || c == '|' || c == '<' || c == '>'
    || c == '(' || c == ')'

/-- The names of parameters that are single signs. -/
def isSpecialParameter (c : Char) : Bool :=
  c == '@' || c == '*' || c == '#' || c == '?' || c == '-' || c == '$' || c == '!'

/-- The text up to a quote, and what is behind it. -/
def takeSingleQuoted : Bytes → Option (Bytes × Bytes)
  | [] => none
  | '\'' :: rest => some ([], rest)
  | c :: rest => (takeSingleQuoted rest).map fun (text, after) => (c :: text, after)

/-- How characters are read while the end of something in brackets is looked for. -/
inductive BracketMode where
  | bare
  | single
  | double
  | backquote
deriving DecidableEq, Repr

/-- The text up to the closing bracket at the depth of its opening one, and what is behind it.
Quoted brackets do not count. -/
def takeBracketed (opening closing : Char) :
    BracketMode → (depth : Nat) → Bytes → Option (Bytes × Bytes)
  | _, _, [] => none
  | mode, depth, c :: rest =>
    let go (mode : BracketMode) (depth : Nat) : Option (Bytes × Bytes) :=
      (takeBracketed opening closing mode depth rest).map fun (text, after) => (c :: text, after)
    match mode with
    | .single => if c = '\'' then go .bare depth else go .single depth
    | .double =>
      if c = '\\' then
        match rest with
        | d :: more =>
          (takeBracketed opening closing .double depth more).map fun (text, after) =>
            (c :: d :: text, after)
        | [] => none
      else if c = '"' then go .bare depth
      else go .double depth
    | .backquote => if c = '`' then go .bare depth else go .backquote depth
    | .bare =>
      if c = '\\' then
        match rest with
        | d :: more =>
          (takeBracketed opening closing .bare depth more).map fun (text, after) =>
            (c :: d :: text, after)
        | [] => none
      else if c = '\'' && closing ≠ '\x7d' then go .single depth
      else if c = '"' then go .double depth
      else if c = '`' then go .backquote depth
      else if c = opening then go .bare (depth + 1)
      else if c = closing then
        match depth with
        | 0 => some ([], rest)
        | outer + 1 => go .bare outer
      else go .bare depth

/-- The script in backquotes, in which a backslash takes its meaning from a quote, a dollar and a
backslash, and what is behind it. -/
def takeBackquoted : Bytes → Option (Bytes × Bytes)
  | [] => none
  | '`' :: rest => some ([], rest)
  | '\\' :: c :: rest =>
    (takeBackquoted rest).map fun (text, after) =>
      (if c = '`' || c = '$' || c = '\\' then c :: text else '\\' :: c :: text, after)
  | c :: rest => (takeBackquoted rest).map fun (text, after) => (c :: text, after)

/-- The use of a parameter and its operand, read from behind the name. -/
def readParameterUse (text : Bytes) : Option (ParameterUse × Bytes) :=
  match text with
  | [] => some (.value, [])
  | ':' :: '-' :: rest => some (.orElse true, rest)
  | ':' :: '=' :: rest => some (.orAssign true, rest)
  | ':' :: '?' :: rest => some (.orFail true, rest)
  | ':' :: '+' :: rest => some (.instead true, rest)
  | '-' :: rest => some (.orElse false, rest)
  | '=' :: rest => some (.orAssign false, rest)
  | '?' :: rest => some (.orFail false, rest)
  | '+' :: rest => some (.instead false, rest)
  | '#' :: '#' :: rest => some (.withoutStart true, rest)
  | '#' :: rest => some (.withoutStart false, rest)
  | '%' :: '%' :: rest => some (.withoutEnd true, rest)
  | '%' :: rest => some (.withoutEnd false, rest)
  | _ => none

/-- The name of a parameter at the start of a text, and what is behind it. -/
def takeParameterName : Bytes → Option (Bytes × Bytes)
  | [] => none
  | c :: rest =>
    if isVariableStart c then
      some (c :: rest.takeWhile isVariableChar, rest.dropWhile isVariableChar)
    else if c.isDigit then some (c :: rest.takeWhile Char.isDigit, rest.dropWhile Char.isDigit)
    else if isSpecialParameter c then some ([c], rest)
    else none

/-- The expansion of a parameter in braces, by what the braces hold. -/
def readBraced (inside : Bytes) : Option Expansion :=
  match inside with
  | '#' :: name@(_ :: _) =>
    match takeParameterName name with
    | some (found, []) => some (.parameter found .length [])
    | _ => none
  | _ => do
    let (name, rest) ← takeParameterName inside
    let (use, operand) ← readParameterUse rest
    return .parameter name use operand

/-- What a dollar stands for, read from behind it: an expansion, or only itself. -/
def readDollar (text : Bytes) : Except String (Option Expansion × Bytes) :=
  match text with
  | '(' :: '(' :: rest =>
    match takeBracketed '(' ')' .bare 0 rest with
    | some (inside, ')' :: after) => .ok (some (.arithmetic inside), after)
    | _ => .error "Syntax error: Missing '))'"
  | '(' :: rest =>
    match takeBracketed '(' ')' .bare 0 rest with
    | some (inside, after) => .ok (some (.command inside), after)
    | none => .error "Syntax error: end of file unexpected (expecting \")\")"
  | '\x7b' :: rest =>
    match takeBracketed '\x7b' '\x7d' .bare 0 rest with
    | some (inside, after) =>
      match readBraced inside with
      | some expansion => .ok (some expansion, after)
      | none => .error "Bad substitution"
    | none => .error "Syntax error: Missing '\x7d'"
  | c :: rest =>
    if isVariableStart c then
      .ok (some (.parameter (c :: rest.takeWhile isVariableChar) .value []),
        rest.dropWhile isVariableChar)
    else if c.isDigit || isSpecialParameter c then .ok (some (.parameter [c] .value []), rest)
    else .ok (none, text)
  | [] => .ok (none, [])

/-- Adds a character to the pieces of a word, which are given backwards. -/
def addChar (c : Char) (quoted : Bool) : List Piece → List Piece
  | .literal text q :: pieces =>
    if q = quoted then .literal (text ++ [c]) q :: pieces
    else .literal [c] quoted :: .literal text q :: pieces
  | pieces => .literal [c] quoted :: pieces

/-- Adds text to the pieces of a word, which are given backwards. -/
def addText (text : Bytes) (quoted : Bool) : List Piece → List Piece
  | .literal before q :: pieces =>
    if q = quoted then .literal (before ++ text) q :: pieces
    else .literal text quoted :: .literal before q :: pieces
  | pieces => .literal text quoted :: pieces

/-- Where a word is being read. -/
inductive WordMode where
  /-- Outside of quotes, up to the end of the word. -/
  | bare
  /-- Between double quotes. -/
  | double
  /-- In text below a line or in an operand, where double quotes are characters if `literal`. -/
  | whole (literal : Bool)
deriving DecidableEq, Repr

/-- Reads the pieces of a word, behind those that are given backwards. Each piece and each character
takes a step of `budget`. -/
def readPieces : (budget : Bytes) → WordMode → List Piece → Bytes →
    Except String (Word × Bytes)
  | [], _, pieces, text => .ok (pieces.reverse, text)
  | _ :: budget, mode, pieces, text =>
    let quoted := mode ≠ .bare && mode ≠ .whole false
    match text with
    | [] => if mode = .double then .error "Syntax error: Unterminated quoted string"
      else .ok (pieces.reverse, [])
    | '\\' :: '\n' :: rest => readPieces budget mode pieces rest
    | '\\' :: c :: rest =>
      if !quoted then readPieces budget mode (addChar c true pieces) rest
      else if c = '$' || c = '`' || c = '\\' || (c = '"' && mode = .double) then
        readPieces budget mode (addChar c true pieces) rest
      else readPieces budget mode (addText ['\\', c] true pieces) rest
    | '$' :: rest =>
      match readDollar rest with
      | .error message => .error message
      | .ok (none, rest) => readPieces budget mode (addChar '$' quoted pieces) rest
      | .ok (some content, rest) =>
        readPieces budget mode (.expansion content quoted :: pieces) rest
    | '`' :: rest =>
      match takeBackquoted rest with
      | none => .error "Syntax error: EOF in backquote substitution"
      | some (script, rest) =>
        readPieces budget mode (.expansion (.command script) quoted :: pieces) rest
    | c :: rest =>
      if mode = .double && c = '"' then .ok (pieces.reverse, rest)
      else if quoted then readPieces budget mode (addChar c true pieces) rest
      else if c = '\'' then
        match takeSingleQuoted rest with
        | none => .error "Syntax error: Unterminated quoted string"
        | some (inside, rest) => readPieces budget mode (addText inside true pieces) rest
      else if c = '"' then
        match readPieces budget .double [.literal [] true] rest with
        | .error message => .error message
        | .ok (inside, rest) => readPieces budget mode (inside.reverse ++ pieces) rest
      else if mode = .bare && endsWord c then .ok (pieces.reverse, text)
      else readPieces budget mode (addChar c false pieces) rest

/-- The pieces of a text that is a word as a whole: an operand in braces or text below a line. -/
def readWhole (quoted : Bool) (text : Bytes) : Except String Word :=
  (readPieces (' ' :: text) (.whole quoted) [] text).map (·.1)

/-- Text that is waited for below the line: the line that ends it, whether tabs in front of its
lines are left out, and whether nothing in it is put in. -/
structure AwaitedText where
  ending : Bytes
  withoutTabs : Bool
  verbatim : Bool
deriving Inhabited

/-- The lines of a text up to one that ends it, and what is behind that. -/
def takeUntilLine (a : AwaitedText) : (budget : Bytes) → Bytes → Bytes × Bytes
  | [], text => ([], text)
  | _ :: budget, text =>
    let line := text.takeWhile (· != '\n')
    let rest := (text.dropWhile (· != '\n')).drop 1
    let shown := if a.withoutTabs then line.dropWhile (· == '\t') else line
    if shown = a.ending then ([], rest)
    else if line.length = text.length then (shown, [])
    else
      let (others, after) := takeUntilLine a budget rest
      (shown ++ '\n' :: others, after)

/-- The texts below a line, in order, and what is behind them. -/
def takeTexts : List AwaitedText → Bytes → List Token × Bytes
  | [], text => ([], text)
  | a :: others, text =>
    let (content, rest) := takeUntilLine a (' ' :: text) text
    let token := if a.verbatim then Token.below [.literal content true]
      else match readWhole true content with
        | .ok word => .below word
        | .error message => .fault message
    let (tokens, rest) := takeTexts others rest
    (token :: tokens, rest)

/-- The text of a word that ends text below a line, and whether part of it is quoted. -/
def endingOf (word : Word) : Bytes × Bool :=
  (word.flatMap fun
    | .literal text _ => text
    | .expansion _ _ => [],
   word.any fun
    | .literal _ quoted => quoted
    | .expansion _ quoted => quoted)

/-- The signs of scripts, each before those that it starts with. -/
def signs : List String :=
  ["<<-", "&&", "||", ";;", "<<", ">>", "<&", ">&", "<>", ">|", ";", "&", "|", "(", ")", "<", ">"]

/-- The sign at the start of a text, and what is behind it. -/
def takeSign? (text : Bytes) : Option (String × Bytes) :=
  signs.findSome? fun sign => (sign.toList.isPrefixOf? text).map (sign, ·)

/-- What the next word is read for. -/
inductive WordPurpose where
  | ordinary
  | ending (withoutTabs : Bool)
deriving DecidableEq, Repr

/-- A token, with the line where it starts. -/
structure PlacedToken where
  line : Nat
  token : Token
deriving Inhabited

/-- The tokens of a script of which `text` is left. `breaks` is the number of line breaks in all of
it, and `awaited` are the texts below the line that is being read. -/
def readTokens (breaks : Nat) :
    (budget : Bytes) → WordPurpose → (awaited : List AwaitedText) → Bytes → List PlacedToken
  | [], _, _, _ => []
  | _ :: budget, purpose, awaited, text =>
    let line := 1 + (breaks - text.count '\n')
    match text with
    | [] => []
    | ' ' :: rest => readTokens breaks budget purpose awaited rest
    | '\t' :: rest => readTokens breaks budget purpose awaited rest
    | '\\' :: '\n' :: rest => readTokens breaks budget purpose awaited rest
    | '#' :: rest => readTokens breaks budget purpose awaited (rest.dropWhile (· != '\n'))
    | '\n' :: rest =>
      let (texts, rest) := takeTexts awaited rest
      texts.map (⟨line, ·⟩) ++ ⟨line, .sign "\n"⟩ :: readTokens breaks budget .ordinary [] rest
    | _ =>
      match takeSign? text with
      | some (sign, rest) =>
        let next := if sign = "<<" then .ending false else if sign = "<<-" then .ending true
          else .ordinary
        ⟨line, .sign sign⟩ :: readTokens breaks budget next awaited rest
      | none =>
        let digits := text.takeWhile Char.isDigit
        let behind := text.drop digits.length
        if !digits.isEmpty && (behind.head? = some '<' || behind.head? = some '>') then
          ⟨line, .descriptor (digitsValue digits)⟩ ::
            readTokens breaks budget .ordinary awaited behind
        else
          match readPieces (' ' :: text) .bare [] text with
          | .error message => [⟨line, .fault message⟩]
          | .ok (word, rest) =>
            match purpose with
            | .ordinary => ⟨line, .word word⟩ :: readTokens breaks budget .ordinary awaited rest
            | .ending withoutTabs =>
              let (ending, verbatim) := endingOf word
              ⟨line, .word word⟩ :: readTokens breaks budget .ordinary
                (awaited ++ [⟨ending, withoutTabs, verbatim⟩]) rest

/-- The tokens of a script. -/
def tokensOf (script : Bytes) : List PlacedToken :=
  readTokens (script.count '\n') (' ' :: script) .ordinary [] script

end NodeScript.Shell
