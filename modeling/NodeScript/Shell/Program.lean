import NodeScript.Shell.Redirection
import NodeScript.Text.Lines

/-!
Programs that a script runs. Most of them are tools that make text of text; some run other commands.
-/

namespace NodeScript.Shell.Run

/-- Does what a tool has to do. -/
def perform (name : String) (task : Task) : Run Unit := do
  let produced ←
    match task with
    | .done produced => pure produced
    | .onFiles files work => do
      if files.isEmpty then pure (work [([], ← readAll 0)])
      else
        let texts ← files.mapM fun file => do
          if file = ['-'] then return (file, some (← readAll 0))
          else return (file, ← pathText? file)
        pure (produceOnFiles name texts work)
  print produced.output
  for line in produced.complaints do printError (bytesOf line)
  ended produced.status

/-- The number that a word is, if it is one. -/
def wordNumber (word : Bytes) : Run Nat := do
  if word.isEmpty || !word.all Char.isDigit then
    failShell (bytesOf "Illegal number: " ++ word)
  else return digitsValue word

/-- Sets options and arguments. The word behind the letter of a named option is passed by. -/
def setOptions : (named : Bool) → List Bytes → Run Unit
  | _, [] => return ()
  | true, _ :: rest => setOptions false rest
  | false, word :: rest => do
    let set (on : Bool) (letters : Bytes) : Run Unit :=
      changeEnvironment fun e => letters.foldl (fun e c =>
        if c = 'e' then { e with strict := on }
        else if c = 'u' then { e with wantsValues := on }
        else if c = 'x' then { e with traced := on }
        else e) e
    match word with
    | ['-', '-'] => changeEnvironment fun e => { e with arguments := rest }
    | '-' :: letters@(_ :: _) =>
      set true letters
      setOptions (letters.getLast? = some 'o') rest
    | '+' :: letters@(_ :: _) =>
      set false letters
      setOptions (letters.getLast? = some 'o') rest
    | _ => changeEnvironment fun e => { e with arguments := word :: rest }

/-- The name and the value of a word that sets a variable, if it sets one. -/
def assignmentOf (word : Bytes) : Bytes × Option Bytes :=
  match cutAt? '=' word with
  | some (name, value) => (name, some value)
  | none => (word, none)

/-- Sets variables by words. -/
def assignWords (each : Bytes → Option Bytes → Run Unit) (words : List Bytes) : Run Unit := do
  for word in words.filter fun word => word.head? ≠ some '-' do
    let (name, value) := assignmentOf word
    each name value
    if let some value := value then setVariable name value
  ended 0

/-- Runs an action as a shell, with what the shell has to do at its end. -/
def asShell (script : Bytes → Run Unit) (action : Run Unit) : Run Unit := do
  try action
  catch leaving => if leaving = .script then throw leaving
  if let some atEnd := (← environment).traps.get? "EXIT".toList then
    let status := (← environment).status
    changeEnvironment fun e => { e with traps := e.traps.erase "EXIT".toList }
    try
      script atEnd
      ended status
    catch leaving => if leaving = .script then throw leaving

/-- Writes the input to files, too. -/
def tee (arguments : List Bytes) : Run Unit := do
  let text ← readAll 0
  let writeOn := arguments.head? = some ['-', 'a']
  print text
  for path in if writeOn then arguments.tail else arguments do
    if canCreate path then
      let id ← fileChannel path writeOn
      changeWorld (·.write id text)
    else if let some (some id) ← device? path then changeWorld (·.write id text)
  ended 0

/-- Copies a file to the place of another one. -/
def copyFile : List Bytes → Run Unit
  | [source, target] => do
    match ← fileText? source with
    | some text =>
      if canCreate target then
        let id ← fileChannel target false
        changeWorld (·.write id text)
        ended 0
      else ended 1
    | none => ended 1
  | _ => ended 1

/-- Runs a command with the words of the input. -/
def withInputWords (words : List Bytes → Run Unit) : List Bytes → Run Unit
  | ['-', 'I'] :: mark :: command => forLines mark command
  | ('-' :: 'I' :: mark) :: command => forLines mark command
  | ['-', 'n'] :: count :: command => forGroups count command
  | ('-' :: 'n' :: count) :: command => forGroups count command
  | command => do words (commandOf command ++ (← inputWords))
where
  /-- Runs a command for each line, which takes the place of a mark in it. -/
  forLines (mark : Bytes) (command : List Bytes) : Run Unit := do
    for line in linesOf (← readAll 0) do
      words (command.map fun word => replaceAll mark line (word.length + 1) word)
  /-- Runs a command for as many words at once. -/
  forGroups (count : Bytes) (command : List Bytes) : Run Unit := do
    let given ← inputWords
    for group in groupsOf (digitsValue count) given.length given do
      words (commandOf command ++ group)
  /-- The command that words are given to. -/
  commandOf (command : List Bytes) : List Bytes :=
    if command.isEmpty then ["echo".toList] else command
  /-- The words of the input. -/
  inputWords : Run (List Bytes) := do
    return splitParts " \t\n".toList [.text (← readAll 0) .expanded]
  /-- Words in groups of a length. -/
  groupsOf (count : Nat) : (budget : Nat) → List Bytes → List (List Bytes)
    | 0, _ => []
    | _, [] => []
    | budget + 1, given => given.take count :: groupsOf count budget (given.drop count)
  /-- A text with another one in the place of a mark. -/
  replaceAll (mark new : Bytes) : (budget : Nat) → Bytes → Bytes
    | 0, text => text
    | budget + 1, text =>
      match cutAround? mark text with
      | some (before, after) => before ++ new ++ replaceAll mark new budget after
      | none => text

/-- The shells by their names. -/
def shellDialects : List (String × Dialect) :=
  [("sh", .plain), ("dash", .plain), ("bash", .rich), ("rbash", .rich)]

/-- The environment of a shell that is started as a program. -/
def innerEnvironment (e : Environment) (dialect : Dialect) (name : Bytes) (arguments : List Bytes) :
    Environment :=
  let start := Environment.start dialect name arguments
  { start with
    descriptors := e.descriptors
    exported := e.exported
    line := 1
    values := start.values.insertAll
      (e.values.entries.filter fun (name, _) => e.exported.contains name) }

/-- Runs a shell with its arguments: the text of a script, the name of a file or the input. -/
def innerShell (script : Bytes → Run Unit) (shell : Bytes) (arguments : List Bytes) : Run Unit := do
  let dialect := ((shellDialects.lookup (textOf (programName shell))).getD .plain)
  let run (name : Bytes) (rest : List Bytes) (text : Bytes) (options : List Bytes) : Run Unit :=
    inSubshell do
      changeEnvironment fun e => innerEnvironment e dialect name rest
      setOptions false options
      asShell script (script text)
  let options := arguments.takeWhile fun word =>
    word.head? = some '-' && word.length > 1 && !word.contains 'c' && word ≠ ['-', '-']
  match arguments.drop options.length with
  | ('-' :: letters) :: text :: rest =>
    if letters.contains 'c' then
      let letters := letters.filter (· ≠ 'c')
      run (rest.headD shell) rest.tail text
        (if letters.isEmpty then options else options ++ ['-' :: letters])
    else ended 2
  | [] => do run shell [] (← readAll 0) options
  | path :: rest =>
    match ← pathText? path with
    | some text => run path rest text options
    | none =>
      printError (bytesOf (textOf shell ++ ": 0: cannot open ") ++ path ++ bytesOf ": No such file")
      ended 2

/-- Runs a program by its name and arguments. -/
def program (script : Bytes → Run Unit) (words : List Bytes → Run Unit) (name : Bytes)
    (arguments : List Bytes) : Run Unit := do
  let notFound : Run Unit := do
    complain (name ++ bytesOf (match (← environment).dialect with
      | .plain => ": not found"
      | .rich => ": command not found"))
    ended 127
  match textOf (programName name) with
  | "tee" => tee arguments
  | "xargs" => withInputWords words arguments
  | "rm" => do
    for path in arguments do changeWorld (·.removeFile path)
    ended 0
  | "touch" => do
    for path in arguments do
      if canCreate path then let _ ← fileChannel path true
    ended 0
  | "cp" => copyFile arguments
  | "mv" => do
    copyFile arguments
    if (← environment).status = 0 then
      if let some path := arguments.head? then changeWorld (·.removeFile path)
  | "mktemp" => do
    let path := bytesOf s!"/tmp/tmp.{(← get).world.channels.size}"
    let _ ← fileChannel path false
    print (path ++ ['\n'])
    ended 0
  | "env" => do
    let settings := arguments.takeWhile (·.contains '=')
    inSubshell do
      assignWords (fun name _ =>
        changeEnvironment fun e => { e with exported := name :: e.exported }) settings
      words (arguments.drop settings.length)
  | "nohup" => words arguments
  | "nice" => words arguments
  | "timeout" => words arguments.tail
  | other =>
    if (shellDialects.lookup other).isSome then innerShell script name arguments
    else
      match utility? name with
      | some (utility, work) => perform utility (work utility arguments)
      | none =>
        if (← pathKinds) name = some .directory && name.contains '/' then
          complain (name ++ bytesOf ": Permission denied")
          ended 126
        else notFound

end NodeScript.Shell.Run
