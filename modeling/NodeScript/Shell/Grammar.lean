import NodeScript.Shell.Lexer

/-!
The commands of a script. A script is read line by line, where a line may go on over others as long
as something in it is open: what stands on the lines before one that cannot be read is run.
-/

namespace NodeScript.Shell

/-- What is left to read: the tokens, and the texts that stand below lines. -/
structure Unread where
  tokens : List PlacedToken
  texts : List Word
deriving Inhabited

/-- A part of the reading of commands. It fails with a message and the line it is about. -/
abbrev Parse := StateT Unread (Except (Nat × String))

/-- The words that have a meaning of their own. -/
def reservedWords : List String :=
  ["if", "then", "elif", "else", "fi", "for", "in", "while", "until", "do", "done", "case", "esac",
    "\x7b", "\x7d", "!"]

namespace Parse

/-- The next token, if there is one. -/
def peek : Parse (Option Token) := do return ((← get).tokens.head?.map (·.token))

/-- The line of the next token. -/
def line : Parse Nat := do
  return ((← get).tokens.head?.map (·.line)).getD 1

/-- Goes on to the token after the next. -/
def skip : Parse Unit := modify fun u => { u with tokens := u.tokens.tail }

/-- The wording of a token in a message. -/
def describe : Option Token → String
  | none => "end of file"
  | some (.sign "\n") => "newline"
  | some (.sign sign) =>
    if sign.startsWith "<" || sign.startsWith ">" then "redirection" else "\"" ++ sign ++ "\""
  | some (.word word) =>
    match (plainText? word).map textOf with
    | some text => if reservedWords.contains text then "\"" ++ text ++ "\"" else "word"
    | none => "word"
  | some (.descriptor _) => "redirection"
  | some (.below _) => "newline"
  | some (.fault message) => message

/-- Fails because of the next token, where something else is expected. -/
def unexpectedBut {α : Type} (expected : String) : Parse α := do
  match ← peek with
  | some (.fault message) => throw (← line, message)
  | token => throw (← line, "Syntax error: " ++ describe token ++ " unexpected" ++ expected)

/-- Fails because of the next token. -/
def unexpected {α : Type} : Parse α := unexpectedBut ""

/-- What is said of a word or sign that is expected. -/
def expecting (text : String) : String := " (expecting \"" ++ text ++ "\")"

/-- Goes on behind a sign, if it is next. -/
def acceptSign (sign : String) : Parse Bool := do
  match ← peek with
  | some (.sign found) =>
    if found = sign then
      skip
      return true
    else return false
  | _ => return false

/-- Goes on behind a sign, which has to be next. -/
def expectSign (sign : String) : Parse Unit := do
  if !(← acceptSign sign) then unexpectedBut (expecting sign)

/-- The next word, if it is one in which nothing is quoted. -/
def peekPlain : Parse (Option Bytes) := do
  match ← peek with
  | some (.word word) => return plainText? word
  | _ => return none

/-- Whether the next word is a reserved one. -/
def atReserved (word : String) : Parse Bool := do
  return (← peekPlain) = some word.toList

/-- Goes on behind a reserved word, if it is next. -/
def acceptReserved (word : String) : Parse Bool := do
  if ← atReserved word then
    skip
    return true
  else return false

/-- Goes on behind a reserved word, which has to be next. -/
def expectReserved (word : String) : Parse Unit := do
  if !(← acceptReserved word) then unexpectedBut (expecting word)

/-- The next word, which has to be there. -/
def expectWord : Parse Word := do
  match ← peek with
  | some (.word word) =>
    skip
    return word
  | _ => unexpected

/-- Goes on behind the ends of lines. -/
def skipLines : Parse Unit :=
  modify fun u => { u with tokens := u.tokens.dropWhile fun t =>
    match t.token with
    | .sign sign => sign = "\n"
    | _ => false }

/-- The next text that stands below a line. -/
def takeText : Parse Word := do
  let u ← get
  set { u with texts := u.texts.tail }
  return u.texts.headD []

end Parse

open Parse

/-- The redirection of a sign, behind the number of its descriptor. -/
def parseTarget (number : Option Nat) (sign : String) : Parse (Option Redirect) := do
  let make (standard : Nat) (target : Word → RedirectTarget) : Parse (Option Redirect) := do
    skip
    return some ⟨number.getD standard, target (← expectWord)⟩
  match sign with
  | "<" => make 0 .input
  | "<>" => make 0 .input
  | ">" => make 1 .output
  | ">|" => make 1 .output
  | ">>" => make 1 .append
  | "<&" => make 0 .duplicate
  | ">&" => make 1 .duplicate
  | "<<" | "<<-" =>
    skip
    let _ ← expectWord
    return some ⟨number.getD 0, .text (← takeText)⟩
  | _ => return none

/-- The next redirection, if one is next. -/
def parseRedirect? : Parse (Option Redirect) := do
  match ← peek with
  | some (.descriptor number) =>
    skip
    match ← peek with
    | some (.sign sign) => parseTarget (some number) sign
    | _ => unexpected
  | some (.sign sign) => parseTarget none sign
  | _ => return none

/-- The redirections that are next. -/
def parseRedirects : (budget : Nat) → Parse (List Redirect)
  | 0 => return []
  | budget + 1 => do
    match ← parseRedirect? with
    | some redirect => return redirect :: (← parseRedirects budget)
    | none => return []

/-- The variable that a word in front of a command sets, with what it is set to. -/
def settingOf : Word → Option (Bytes × Word)
  | .literal text false :: rest =>
    match text with
    | [] => none
    | c :: _ =>
      let name := text.takeWhile isVariableChar
      match text.drop name.length with
      | '=' :: value =>
        if isVariableStart c then
          some (name, if value.isEmpty then rest else .literal value false :: rest)
        else none
      | _ => none
  | _ => none

/-- Adds redirections to a command that has some. -/
def Command.withRedirects (command : Command) (redirects : List Redirect) : Command :=
  if redirects.isEmpty then command else .redirected command redirects

/-- The rest of a simple command: what is set in front of it, its words and its redirections. -/
def parseSimple (line : Nat) : (budget : Nat) → List (Bytes × Word) → List Word → List Redirect →
    Parse Command
  | 0, _, _, _ => unexpected
  | budget + 1, settings, words, redirects => do
    match ← parseRedirect? with
    | some redirect => parseSimple line budget settings words (redirects ++ [redirect])
    | none =>
      match ← peek with
      | some (.word word) =>
        skip
        match words, settingOf word with
        | [], some setting => parseSimple line budget (settings ++ [setting]) [] redirects
        | _, _ => parseSimple line budget settings (words ++ [word]) redirects
      | _ =>
        if settings.isEmpty && words.isEmpty && redirects.isEmpty then unexpected
        else return (Command.simple line settings words).withRedirects redirects

/-- The words up to the end of a line. -/
def parseWords : (budget : Nat) → Parse (List Word)
  | 0 => return []
  | budget + 1 => do
    match ← peek with
    | some (.word word) =>
      skip
      return word :: (← parseWords budget)
    | _ => return []

/-- The patterns in front of the body of a case. -/
def parsePatterns : (budget : Nat) → Parse (List Word)
  | 0 => unexpected
  | budget + 1 => do
    let word ← expectWord
    if ← acceptSign "|" then return word :: (← parsePatterns budget)
    expectSign ")"
    return [word]

/-- The words that end a list of commands. -/
def closingWords : List String :=
  ["then", "elif", "else", "fi", "do", "done", "esac", "\x7d"]

/-- Whether a list of commands ends here. -/
def atClosing : Parse Bool := do
  match ← peek with
  | none => return true
  | some (.sign sign) => return sign = ")" || sign = ";;"
  | some (.word word) =>
    match plainText? word with
    | some text => return closingWords.any (·.toList = text)
    | none => return false
  | _ => return false

/-- The commands of a list. -/
def Command.ofList : List Command → Command
  | [command] => command
  | commands => .sequence commands

mutual

/-- Commands up to a word or sign that ends them, at least one. -/
def parseList : (budget : Nat) → Parse Command
  | 0 => unexpected
  | budget + 1 => do
    skipLines
    let first ← parseJoined budget
    return Command.ofList (first :: (← parseFurther budget))

/-- Further commands of a list. -/
def parseFurther : (budget : Nat) → Parse (List Command)
  | 0 => unexpected
  | budget + 1 => do
    let separated := (← acceptSign ";") || (← acceptSign "&") || (← acceptSign "\n")
    if !separated then
      if ← atClosing then return [] else unexpected
    else
      skipLines
      if ← atClosing then return []
      let next ← parseJoined budget
      return next :: (← parseFurther budget)

/-- Commands that are joined by what has to be the case for the next. -/
def parseJoined : (budget : Nat) → Parse Command
  | 0 => unexpected
  | budget + 1 => do
    let first ← parsePipeline budget
    parseJoints budget first

/-- The commands that are joined to those in front of them. -/
def parseJoints : (budget : Nat) → Command → Parse Command
  | 0, _ => unexpected
  | budget + 1, before => do
    if ← acceptSign "&&" then
      skipLines
      let next ← parsePipeline budget
      parseJoints budget (.both before next)
    else if ← acceptSign "||" then
      skipLines
      let next ← parsePipeline budget
      parseJoints budget (.either before next)
    else return before

/-- Commands of which each reads what the one before it prints. -/
def parsePipeline : (budget : Nat) → Parse Command
  | 0 => unexpected
  | budget + 1 => do
    if ← acceptReserved "!" then return .negated (← parsePipeline budget)
    let first ← parseCommand budget
    match ← parsePiped budget with
    | [] => return first
    | others => return .pipeline (first :: others)

/-- The commands of a pipeline behind its first. -/
def parsePiped : (budget : Nat) → Parse (List Command)
  | 0 => unexpected
  | budget + 1 => do
    if ← acceptSign "|" then
      skipLines
      let next ← parseCommand budget
      return next :: (← parsePiped budget)
    else return []

/-- A single command with its redirections. -/
def parseCommand : (budget : Nat) → Parse Command
  | 0 => unexpected
  | budget + 1 => do
    if ← acceptSign "(" then
      let body ← parseList budget
      expectSign ")"
      return (Command.subshell body).withRedirects (← parseRedirects budget)
    if ← atClosing then unexpected
    let compound (action : Parse Command) : Parse Command := do
      skip
      let command ← action
      return command.withRedirects (← parseRedirects budget)
    let before ← get
    match (← peekPlain).map textOf with
    | some "\x7b" => compound do
      let body ← parseList budget
      expectReserved "\x7d"
      return body
    | some "if" => compound (parseBranch budget)
    | some "while" => compound (parseLoop budget true)
    | some "until" => compound (parseLoop budget false)
    | some "for" => compound (parseFor budget)
    | some "case" => compound do
      let subject ← expectWord
      skipLines
      expectReserved "in"
      skipLines
      return .select subject (← parseCases budget)
    | some name =>
      let line ← Parse.line
      skip
      if !name.toList.contains '=' && (← acceptSign "(") then
        expectSign ")"
        skipLines
        return .define (bytesOf name) (← parseCommand budget)
      set before
      parseSimple line (before.tokens.length + 1) [] [] []
    | none => parseSimple (← Parse.line) (before.tokens.length + 1) [] [] []

/-- A branch, behind the word that starts it. -/
def parseBranch : (budget : Nat) → Parse Command
  | 0 => unexpected
  | budget + 1 => do
    let condition ← parseList budget
    expectReserved "then"
    let thenDo ← parseList budget
    if ← acceptReserved "elif" then
      return .branch condition thenDo (some (← parseBranch budget))
    let elseDo ← (do
      if ← acceptReserved "else" then return some (← parseList budget) else return none)
    expectReserved "fi"
    return .branch condition thenDo elseDo

/-- A loop, behind the word that starts it. -/
def parseLoop : (budget : Nat) → (whileWell : Bool) → Parse Command
  | 0, _ => unexpected
  | budget + 1, whileWell => do
    let condition ← parseList budget
    expectReserved "do"
    let body ← parseList budget
    expectReserved "done"
    return .loop (!whileWell) condition body

/-- A loop over words, behind the word that starts it. -/
def parseFor : (budget : Nat) → Parse Command
  | 0 => unexpected
  | budget + 1 => do
    let name ← expectWord
    skipLines
    let words ← (do
      if ← acceptReserved "in" then
        let words ← parseWords (← get).tokens.length
        if !((← acceptSign ";") || (← acceptSign "\n")) then unexpected
        return some words
      else
        let _ ← acceptSign ";"
        return none)
    skipLines
    expectReserved "do"
    let body ← parseList budget
    expectReserved "done"
    return .forEach ((plainText? name).getD []) words body

/-- The cases of a choice, up to the word that ends it. -/
def parseCases : (budget : Nat) → Parse (List (List Word × Command))
  | 0 => unexpected
  | budget + 1 => do
    skipLines
    if ← acceptReserved "esac" then return []
    let _ ← acceptSign "("
    let patterns ← parsePatterns budget
    skipLines
    let body ← (do
      if ← atClosing then return Command.sequence [] else parseList budget)
    if ← acceptSign ";;" then return (patterns, body) :: (← parseCases budget)
    expectReserved "esac"
    return [(patterns, body)]

end

/-- The commands of a line, at least one. -/
def parseLine (budget : Nat) : (steps : Nat) → Parse (List Command)
  | 0 => unexpected
  | steps + 1 => do
    let command ← parseJoined budget
    if (← acceptSign ";") || (← acceptSign "&") then
      match ← peek with
      | none => return [command]
      | some (.sign "\n") => return [command]
      | _ => return command :: (← parseLine budget steps)
    else
      match ← peek with
      | none => return [command]
      | some (.sign "\n") => return [command]
      | _ => unexpected

/-- The lines of a script as commands, and why it cannot be read on, if it cannot. -/
def parseLines (budget : Nat) : (steps : Nat) → Unread → List Command × Option (Nat × String)
  | 0, _ => ([], none)
  | steps + 1, unread =>
    let rest := { unread with tokens := unread.tokens.dropWhile fun t =>
      match t.token with
      | .sign sign => sign = "\n"
      | _ => false }
    if rest.tokens.isEmpty then ([], none)
    else
      match (parseLine budget rest.tokens.length).run rest with
      | .error fault => ([], some fault)
      | .ok (commands, rest) =>
        let (others, fault) := parseLines budget steps rest
        (Command.ofList commands :: others, fault)

/-- The commands of a script, and why it cannot be read on, if it cannot. -/
def parseScript (script : Bytes) : List Command × Option (Nat × String) :=
  let tokens := tokensOf script
  let texts := tokens.filterMap fun t =>
    match t.token with
    | .below word => some word
    | _ => none
  let visible := tokens.filter fun t =>
    match t.token with
    | .below _ => false
    | _ => true
  -- Every step of the reading either takes a token or goes one level down.
  parseLines (10 * visible.length + 10) (visible.length + 1) ⟨visible, texts⟩

end NodeScript.Shell
