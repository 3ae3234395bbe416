import NodeScript.Shell.Builtin
import NodeScript.Shell.Grammar

/-!
The run of a script. A command runs to its end before the next one starts, also in a pipeline, where
what it prints is kept until it is read.
-/

namespace NodeScript.Shell.Run

/-- Runs the body of a loop, and says whether the loop goes on. -/
def loopBody (body : Run Unit) : Run Bool := do
  try
    body
    return true
  catch leaving =>
    match leaving with
    | .loops 1 again => return again
    | .loops (count + 1) again => throw (.loops count again)
    | _ => throw leaving

/-- Runs a loop, which is counted as running. -/
def asLoop (action : Run Unit) : Run Unit :=
  keeping (fun before now => { now with loops := before.loops }) do
    changeEnvironment fun e => { e with loops := e.loops + 1 }
    action

/-- Runs an action whose failure is looked at, so that it does not end the script. -/
def leniently (action : Run Unit) : Run Unit :=
  keeping (fun before now => { now with lenient := before.lenient }) do
    changeEnvironment fun e => { e with lenient := true }
    action

/-- Ends a strict script if the last command has failed. -/
def endIfStrict : Run Unit := do
  let e ← environment
  if e.strict && !e.lenient && e.status ≠ 0 then throw .shell

/-- Calls a function. -/
def call (self : Command → Run Unit) (body : Command) (arguments : List Bytes) : Run Unit := do
  let restore (before now : Environment) : Environment :=
    { now with
      arguments := before.arguments
      hidden := before.hidden
      loops := before.loops
      values := now.hidden.foldl restoreVariable now.values }
  keeping restore do
    changeEnvironment fun e => { e with arguments, hidden := [], loops := 0 }
    try self body
    catch leaving => if leaving ≠ .function then throw leaving

/-- Runs a command by its words, of which the first is its name. -/
def runWords (self : Command → Run Unit) (script : Bytes → Run Unit)
    (words : List Bytes → Run Unit) (useFunctions : Bool) : List Bytes → Run Unit
  | [] => ended 0
  | name :: arguments => do
    let function := (← environment).functions.get? name
    match function.filter fun _ => useFunctions with
    | some body => call self body arguments
    | none =>
      match builtin? script words (textOf name) arguments with
      | some action => action
      | none => program script words name arguments

/-- Shows a command that is about to be run. -/
def trace (words : List Bytes) : Run Unit := do
  if (← environment).traced then
    printError (((← valueOf? "PS4".toList).getD []) ++ List.intercalate [' '] words)

/-- Runs a simple command. What is set in front of it stays only if there is no command, or one that
keeps it. -/
def runSimple (self : Command → Run Unit) (script : Bytes → Run Unit)
    (words : List Bytes → Run Unit) (substitute : Bytes → Run Bytes) (line : Nat)
    (settings : List (Bytes × Word)) (commandWords : List Word) (redirects : List Redirect) :
    Run Unit := do
  changeEnvironment fun e => { e with line, substituted := 0 }
  let fields ← expandFields substitute commandWords
  let assign : Run (List Bytes) := settings.mapM fun (name, value) => do
    let text ← expandText substitute value
    setVariable name text
    return name ++ '=' :: text
  match fields with
  | [] =>
    keepingDescriptors do
      if ← redirectAll substitute redirects then
        trace (← assign)
        ended (← environment).substituted
      else ended 2
  | name :: arguments =>
    let command := textOf name
    let isFunction := (← environment).functions.contains name
    if command = "exec" && !isFunction then
      if !(← redirectAll substitute redirects) then
        ended 2
        throw .shell
      trace fields
      if !arguments.isEmpty then
        runWords self script words false arguments
        throw .shell
      ended 0
    else
      keepingDescriptors do
        if ← redirectAll substitute redirects then
          let before ← settings.mapM fun (name, _) => return (name, ← valueOf? name)
          let exported := (← environment).exported
          let shown ← assign
          trace (shown ++ fields)
          if !settings.isEmpty then
            changeEnvironment fun e => { e with exported := settings.map (·.1) ++ exported }
          runWords self script words true fields
          if !specialCommands.contains command then
            changeEnvironment fun e =>
              { e with values := before.foldl restoreVariable e.values }
            if !settings.isEmpty then changeEnvironment fun e => { e with exported }
        else
          ended 2
          if specialCommands.contains command then throw .shell
  endIfStrict

/-- Runs the commands of a pipeline, each on what the one before it has printed. -/
def runPipeline (self : Command → Run Unit) : List Command → Run Unit
  | [] => return ()
  | [last] => inSubshell (self last)
  | command :: others => do
    let id ← addChannel []
    inSubshell (withDescriptor 1 id (self command))
    withDescriptor 0 id (runPipeline self others)

/-- Whether a subject is one of the patterns of a case. -/
def isCase (substitute : Bytes → Run Bytes) (subject : Bytes) : List Word → Run Bool
  | [] => return false
  | word :: others => do
    if (← expandPattern substitute word).matchesText subject then return true
    else isCase substitute subject others

/-- Runs the body of the first case that a subject is one of. -/
def runCases (self : Command → Run Unit) (substitute : Bytes → Run Bytes) (subject : Bytes) :
    List (List Word × Command) → Run Unit
  | [] => return ()
  | (patterns, body) :: others => do
    if ← isCase substitute subject patterns then self body
    else runCases self substitute subject others

/-- Runs the text of a script in the environment that is there. -/
def runScript (self : Command → Run Unit) (text : Bytes) : Run Unit := do
  let (commands, fault) := parseScript text
  for command in commands do self command
  if let some (line, message) := fault then
    changeEnvironment fun e => { e with line }
    failShell (bytesOf message)

/-- The output of a script that is put into a word. How it ended is kept aside. -/
def substituteScript (self : Command → Run Unit) (text : Bytes) : Run Bytes := do
  let status := (← environment).status
  let output ← captured (runScript self text)
  changeEnvironment fun e => { e with substituted := e.status, status }
  return output.filter (· ≠ '\x00')

/-- Runs a command, with `self` for the commands in it. -/
def executeWith (self : Command → Run Unit) (command : Command) : Run Unit := do
  let script := runScript self
  let substitute := substituteScript self
  let words (fields : List Bytes) : Run Unit := do
    self (.simple (← environment).line [] (fields.map fun field => [.literal field true]))
  let simple (line : Nat) (settings : List (Bytes × Word)) (fields : List Word)
      (redirects : List Redirect) : Run Unit :=
    runSimple self script words substitute line settings fields redirects
  match command with
  | .simple line settings fields => simple line settings fields []
  | .redirected (.simple line settings fields) redirects => simple line settings fields redirects
  | .redirected inner redirects =>
    keepingDescriptors do
      if ← redirectAll substitute redirects then self inner else ended 2
  | .pipeline commands =>
    leniently (runPipeline self commands)
    endIfStrict
  | .negated inner =>
    leniently (self inner)
    ended (if (← environment).status = 0 then 1 else 0)
  | .both first second =>
    leniently (self first)
    if (← environment).status = 0 then self second
  | .either first second =>
    leniently (self first)
    if (← environment).status ≠ 0 then self second
  | .sequence commands => for command in commands do self command
  | .subshell body =>
    inSubshell (asShell script (self body))
    endIfStrict
  | .branch condition thenDo elseDo =>
    leniently (self condition)
    if (← environment).status = 0 then self thenDo
    else
      match elseDo with
      | some other => self other
      | none => ended 0
  | .loop untilWell condition body =>
    asLoop do
      ended (← loopTurns (leniently (self condition)) untilWell (self body) lineLimit 0)
  | .forEach name given body => do
    let fields ← match given with
      | some given => expandFields substitute given
      | none => pure (← environment).arguments
    ended 0
    asLoop (eachField name (self body) fields)
  | .select subject cases => do
    let text ← expandText substitute subject
    ended 0
    runCases self substitute text cases
  | .define name body =>
    changeEnvironment fun e => { e with functions := e.functions.insert name body }
    ended 0
where
  /-- The turns of a loop of which the last body ended with a status. -/
  loopTurns (condition : Run Unit) (untilWell : Bool) (body : Run Unit) :
      (budget : Nat) → (status : Nat) → Run Nat
    | 0, _ => throw .script
    | budget + 1, status => do
      let goesOn ← loopBody condition
      let well := (← environment).status = 0
      if goesOn && (well != untilWell) then
        if ← loopBody body then
          loopTurns condition untilWell body budget (← environment).status
        else return (← environment).status
      else return status
  /-- Runs the body of a loop for each field. -/
  eachField (name : Bytes) (body : Run Unit) : List Bytes → Run Unit
    | [] => return ()
    | field :: others => do
      setVariable name field
      if ← loopBody body then eachField name body others

/-- Runs a command with as many levels of commands in it as a budget allows. -/
def execute : (budget : Nat) → Command → Run Unit
  | 0, _ => throw .script
  | budget + 1, command => executeWith (execute budget) command

/-- How many levels of commands may be in another. -/
def commandBudget : Nat := 2000

/-- Runs a program on its own. Of the commands that are part of the shell some are programs, too. -/
def programAlone (name : Bytes) (arguments : List Bytes) : Run Unit := do
  let script := runScript (execute commandBudget)
  let words (fields : List Bytes) : Run Unit :=
    execute commandBudget (.simple 1 [] (fields.map fun field => [.literal field true]))
  if ["test", "[", "pwd", "kill"].contains (textOf (programName name)) then
    words (programName name :: arguments)
  else program script words name arguments

/-- What an action makes of a world. -/
def finish (action : Run Unit) (world : World) : World :=
  (action.run.run ⟨Environment.start .plain "sh".toList [], world⟩).2.world

end NodeScript.Shell.Run
