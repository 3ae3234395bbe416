import NodeScript.Shell.Program

/-!
Commands that are part of the shell: those that change its variables, options and arguments, read
lines, send signals, and those that leave loops, functions and the shell itself.
-/

namespace NodeScript.Shell.Run

/-- The characters of a line that is read, with whether they are quoted, a backslash at its end, and
what has been read. -/
def markLine : Bytes → List (Char × Bool) × Bool
  | [] => ([], false)
  | ['\\'] => ([], true)
  | '\\' :: c :: rest =>
    let (others, open?) := markLine rest
    ((c, true) :: others, open?)
  | c :: rest =>
    let (others, open?) := markLine rest
    ((c, false) :: others, open?)

/-- The characters of a line and of those that it goes on with, and whether it had an end. -/
def readMarked (raw : Bool) : (budget : Nat) → Run (List (Char × Bool) × Bool)
  | 0 => return ([], false)
  | budget + 1 => do
    let (line, whole) ← readLine 0
    if raw then return (line.map fun c => (c, false), whole)
    else
      let (marked, goesOn) := markLine line
      if goesOn && whole then
        let (others, whole) ← readMarked raw budget
        return (marked ++ others, whole)
      else return (marked, whole)

/-- Sets variables to the fields of a line, the last one to all that is left. -/
def setFields (separators : Bytes) : List Bytes → List (Char × Bool) → Run Unit
  | [], _ => return ()
  | name :: others, marked => do
    let blank (c : Char × Bool) : Bool :=
      !c.2 && separators.contains c.1 && (c.1 = ' ' || c.1 = '\t' || c.1 = '\n')
    let separates (c : Char × Bool) : Bool := !c.2 && separators.contains c.1
    let marked := marked.dropWhile blank
    if others.isEmpty then
      let kept := (marked.reverse.dropWhile blank).reverse
      -- A single separator that is no blank ends the last field.
      let inner := kept.filter separates
      let kept :=
        if inner.length = 1 && (kept.getLast?.map separates).getD false then kept.dropLast else kept
      setVariable name (kept.map (·.1))
    else
      let field := marked.takeWhile fun c => !separates c
      let rest := (marked.drop field.length).dropWhile blank
      let rest :=
        match rest with
        | c :: more => if separates c then more else rest
        | [] => []
      setVariable name (field.map (·.1))
      setFields separators others rest

/-- Reads a line into variables. -/
def readInto (arguments : List Bytes) : Run Unit := do
  let raw := arguments.head? = some ['-', 'r']
  let names := if raw then arguments.tail else arguments
  let (marked, whole) ← readMarked raw 1000
  setFields (← separators) names marked
  ended (if whole then 0 else 1)

/-- The signals that do not end a process. -/
def harmlessSignals : List String := ["0", "CHLD", "17", "CONT", "18", "URG", "23", "WINCH", "28"]

/-- The name of a signal without what may stand in front of it. -/
def signalName (word : Bytes) : String :=
  let name := textOf word
  let name := if name.startsWith "SIG" then String.ofList (name.toList.drop 3) else name
  (([("1", "HUP"), ("2", "INT"), ("3", "QUIT"), ("9", "KILL"), ("13", "PIPE"), ("15", "TERM"),
    ("0", "EXIT")] : List (String × String)).lookup name).getD name

/-- Sends a signal to processes, of which only the script itself is there. -/
def sendSignal (self : Bytes → Run Unit) (arguments : List Bytes) : Run Unit := do
  let (signal, processes) :=
    match arguments with
    | ['-', 's'] :: signal :: rest => (signal, rest)
    | ('-' :: signal) :: rest => (signal, rest)
    | rest => ("TERM".toList, rest)
  if signal = ['l'] then ended 0
  else if processes.contains processNumber then
    match (← environment).traps.get? (bytesOf (signalName signal)) with
    | some action =>
      if signalName signal = "KILL" then throw .script
      self action
      ended 0
    | none => if harmlessSignals.contains (textOf signal) then ended 0 else throw .script
  else
    complain (bytesOf "kill: No such process")
    ended 1

/-- Sets what is run at signals. -/
def setTraps (arguments : List Bytes) : Run Unit := do
  match arguments with
  | [] => ended 0
  | [signal] =>
    changeEnvironment fun e => { e with traps := e.traps.erase (bytesOf (signalName signal)) }
    ended 0
  | action :: signals =>
    changeEnvironment fun e => { e with traps := signals.foldl (fun traps signal =>
      let name := bytesOf (signalName signal)
      if action = ['-'] then traps.erase name else traps.insert name action) e.traps }
    ended 0

/-- The commands that are part of the shell and keep what is set in front of them. -/
def specialCommands : List String :=
  [":", ".", "eval", "exec", "exit", "export", "readonly", "return", "set", "shift", "times",
    "trap", "unset", "break", "continue"]

/-- The commands that are part of the shell. -/
def builtinNames : List String :=
  specialCommands ++ ["true", "false", "echo", "printf", "test", "[", "cd", "pwd", "local", "kill",
    "wait", "type", "command", "umask", "read", "alias", "unalias", "hash", "ulimit", "jobs"]

/-- The programs that do more than make text of text: they run commands or change files. -/
def actingPrograms : List String :=
  ["env", "nohup", "nice", "timeout", "xargs", "tee", "rm", "touch", "cp", "mv", "mktemp"]

/-- Whether a name is one of a command that is not a function. -/
def isKnownCommand (name : Bytes) : Bool :=
  builtinNames.contains (textOf name) || (utility? name).isSome
    || actingPrograms.contains (textOf (programName name))
    || (shellDialects.lookup (textOf (programName name))).isSome

/-- Runs a command that is part of the shell, if the name is one of those. `script` runs the text of
a script, and `words` a command by its words. -/
def builtin? (script : Bytes → Run Unit) (words : List Bytes → Run Unit) (name : String)
    (arguments : List Bytes) : Option (Run Unit) :=
  match name with
  | ":" => some (ended 0)
  | "true" => some (ended 0)
  | "false" => some (ended 1)
  | "echo" => some do
    match (← environment).dialect with
    | .plain =>
      print (echoText arguments)
      ended 0
    | .rich => perform name (echoUtility name arguments)
  | "printf" => some do
    let e ← environment
    perform (textOf e.name ++ s!": {e.line}: printf") (printfTask
      (textOf e.name ++ s!": {e.line}: printf") arguments)
  | "test" => some (test arguments)
  | "[" => some do
    if arguments.getLast? = some [']'] then test arguments.dropLast
    else
      complain (bytesOf "[: missing ]")
      ended 2
  | "exit" => some do
    if let some word := arguments.head? then ended ((← wordNumber word) % 256)
    throw .shell
  | "return" => some do
    if let some word := arguments.head? then ended ((← wordNumber word) % 256)
    throw .function
  | "break" => some (leaveLoops false)
  | "continue" => some (leaveLoops true)
  | "set" => some do
    setOptions false arguments
    ended 0
  | "shift" => some do
    let count ← match arguments.head? with
      | some word => wordNumber word
      | none => pure 1
    if (← environment).arguments.length < count then
      failShell (bytesOf "shift: can't shift that many")
    changeEnvironment fun e => { e with arguments := e.arguments.drop count }
    ended 0
  | "export" => some (assignWords (fun name _ =>
      changeEnvironment fun e => { e with exported := name :: e.exported }) arguments)
  | "readonly" => some (assignWords (fun _ _ => return ()) arguments)
  | "local" => some (assignWords (fun name value => do
      let before ← valueOf? name
      changeEnvironment fun e => { e with hidden := (name, before) :: e.hidden }
      if value.isNone then return ()) arguments)
  | "unset" => some do
    for word in arguments do
      unsetVariable word
      if arguments.head? = some ['-', 'f'] then
        changeEnvironment fun e => { e with functions := e.functions.erase word }
    ended 0
  | "eval" => some do
    ended 0
    script (List.intercalate [' '] arguments)
  | "." => some do
    match arguments.head? with
    | none => ended 2
    | some path =>
      match ← pathText? path with
      | some text =>
        ended 0
        script text
      | none => failShell (bytesOf ".: cannot open " ++ path ++ bytesOf ": No such file")
  | "kill" => some (sendSignal script arguments)
  | "trap" => some (setTraps arguments)
  | "read" => some (readInto arguments)
  | "command" => some do
    match arguments with
    | ['-', 'v'] :: names => locate names commandPath
    | rest => words rest
  | "type" => some (locate arguments fun name => name ++ bytesOf " is a shell builtin")
  | "cd" => some do
    let path := arguments.headD ['/']
    if (← pathKinds) path = some .directory then ended 0
    else
      complain (bytesOf "cd: can't cd to " ++ path)
      ended 2
  | "pwd" => some do
    print "/\n".toList
    ended 0
  | "umask" => some do
    if arguments.isEmpty then print "0022\n".toList
    ended 0
  | "ulimit" => some (ended 0)
  | "hash" => some (ended 0)
  | "times" => some (ended 0)
  | "wait" => some (ended 0)
  | "jobs" => some (ended 0)
  | "alias" => some (ended 0)
  | "unalias" => some (ended 0)
  | _ => none
where
  /-- Where a command is. -/
  commandPath (name : Bytes) : Bytes :=
    if builtinNames.contains (textOf name) || name.contains '/' then name
    else (bytesOf "/usr/bin/") ++ name
  /-- Ends with whether a condition holds. -/
  test (arguments : List Bytes) : Run Unit := do
    match conditionHolds (← pathKinds) arguments with
    | .ok holds => ended (if holds then 0 else 1)
    | .error fault =>
      complain (bytesOf (name ++ ": ") ++ fault.message)
      ended 2
  /-- Leaves loops, or goes on with the next turn of one. -/
  leaveLoops (again : Bool) : Run Unit := do
    let count ← match arguments.head? with
      | some word => wordNumber word
      | none => pure 1
    let count := min count (← environment).loops
    ended 0
    if count ≠ 0 then throw (.loops count again)
  /-- Prints of names what commands they are. -/
  locate (names : List Bytes) (describe : Bytes → Bytes) : Run Unit := do
    ended 0
    for name in names do
      if (← environment).functions.contains name || isKnownCommand name then
        print (describe name ++ ['\n'])
      else ended 127

end NodeScript.Shell.Run
