import NodeScript.OrderedMap
import NodeScript.Shell.Syntax

/-!
What a running script has: its variables, functions and arguments, which a subshell has a copy of,
and the channels and files that all parts of a script share.
-/

namespace NodeScript.Shell

/-- Text that is written at one end and read at the other. -/
structure Channel where
  /-- What is read next. -/
  front : Bytes
  /-- What has been written behind that, the last first. -/
  written : List Bytes
deriving Inhabited

/-- The text that can be read from a channel. -/
def Channel.text (c : Channel) : Bytes := c.front ++ c.written.reverse.flatten

/-- The number of a channel. -/
structure ChannelId where
  index : Nat
deriving DecidableEq, Repr, Inhabited

/-- The channels and files of a script. A file is a channel that is read without being emptied. -/
structure World where
  channels : Array Channel
  files : OrderedMap Bytes ChannelId
deriving Inhabited

namespace World

/-- The channel that is always empty. -/
def void : ChannelId := ⟨0⟩

/-- The channel of the input of a script. -/
def input : ChannelId := ⟨1⟩

/-- The channel that a script prints to. -/
def output : ChannelId := ⟨2⟩

/-- The channel that a script complains to. -/
def errors : ChannelId := ⟨3⟩

/-- The text of a channel. -/
def textOf (w : World) (id : ChannelId) : Bytes := (w.channels[id.index]?.getD default).text

/-- Adds a channel with a text. -/
def addChannel (w : World) (text : Bytes) : ChannelId × World :=
  (⟨w.channels.size⟩, { w with channels := w.channels.push ⟨text, []⟩ })

/-- A path without the dots at its start, which stand for the directory that it starts at anyway. -/
def plainPath : Bytes → Bytes
  | '.' :: '/' :: rest => plainPath (rest.dropWhile (· == '/'))
  | path => path
termination_by path => path.length
decreasing_by
  have := (List.dropWhile_sublist (· == '/') (l := rest)).length_le
  simp only [List.length_cons]
  omega

/-- The channel of the file of a path, if there is one. -/
def fileAt? (w : World) (path : Bytes) : Option ChannelId := w.files.get? (plainPath path)

/-- Adds a file with a text. -/
def addFile (w : World) (file : Bytes × Bytes) : World :=
  let (id, w) := w.addChannel file.2
  { w with files := w.files.insert (plainPath file.1) id }

/-- Takes a file away. -/
def removeFile (w : World) (path : Bytes) : World :=
  { w with files := w.files.erase (plainPath path) }

/-- The files with their texts. -/
def fileTexts (w : World) : List (Bytes × Bytes) :=
  w.files.entries.map fun (path, id) => (path, w.textOf id)

/-- The world at the start of a script: its input, and the files that are there. -/
def start (input : Bytes) (files : List (Bytes × Bytes)) : World :=
  files.foldl addFile ⟨#[⟨[], []⟩, ⟨input, []⟩, ⟨[], []⟩, ⟨[], []⟩], ∅⟩

/-- Writes to a channel. Nothing stays in the one that is always empty. -/
def write (w : World) (id : ChannelId) (text : Bytes) : World :=
  if id = void then w
  else { w with channels := w.channels.modify id.index fun c =>
    { c with written := text :: c.written } }

/-- Leaves a text to be read from a channel. -/
def leave (w : World) (id : ChannelId) (text : Bytes) : World :=
  { w with channels := w.channels.modify id.index fun _ => ⟨text, []⟩ }

end World

/-- How a shell speaks: `plain` shells know escapes in all that is echoed, and `rich` ones only if
they are asked for. -/
inductive Dialect where
  | plain | rich
deriving DecidableEq, Repr, Inhabited

/-- The variables with one of them as it was before. -/
def restoreVariable (values : OrderedMap Bytes Bytes) (before : Bytes × Option Bytes) :
    OrderedMap Bytes Bytes :=
  match before.2 with
  | some value => values.insert before.1 value
  | none => values.erase before.1

/-- What belongs to a shell and is copied by a subshell. -/
structure Environment where
  dialect : Dialect
  name : Bytes
  arguments : List Bytes
  values : OrderedMap Bytes Bytes
  functions : OrderedMap Bytes Command
  /-- What is run at a signal, or at the end. -/
  traps : OrderedMap Bytes Bytes
  /-- The channels by the numbers of descriptors. -/
  descriptors : OrderedMap Nat ChannelId
  /-- What the variables were that the running function has made its own. -/
  hidden : List (Bytes × Option Bytes)
  /-- The variables that programs are given. -/
  exported : List Bytes
  /-- How the last command ended. -/
  status : Nat
  /-- How the last command ended whose output was put in. -/
  substituted : Nat
  /-- How many loops are running. -/
  loops : Nat
  /-- The line of the running command. -/
  line : Nat
  /-- Whether a command that fails ends the script, and whether that is left aside here. -/
  strict : Bool
  lenient : Bool
  /-- Whether variables have to be set. -/
  wantsValues : Bool
  /-- Whether commands are shown. -/
  traced : Bool
deriving Inhabited

/-- The environment at the start of a script. -/
def Environment.start (dialect : Dialect) (name : Bytes) (arguments : List Bytes) :
    Environment where
  dialect := dialect
  name := name
  arguments := arguments
  values := .ofList [("IFS".toList, " \t\n".toList), ("PS4".toList, "+ ".toList),
    ("OPTIND".toList, ['1'])]
  functions := ∅
  traps := ∅
  descriptors := .ofList [(0, World.input), (1, World.output), (2, World.errors)]
  hidden := []
  exported := []
  status := 0
  substituted := 0
  loops := 0
  line := 1
  strict := false
  lenient := false
  wantsValues := false
  traced := false

/-- The number of the process that runs a script. -/
def processNumber : Bytes := "1000".toList

/-- The state of a running script. -/
structure State where
  environment : Environment
  world : World
deriving Inhabited

/-- Why the commands that follow are not run. -/
inductive Leaving where
  /-- The shell has ended. -/
  | shell
  /-- A function has returned. -/
  | function
  /-- So many loops are left, the last of which goes on with its next turn if `again`. -/
  | loops (count : Nat) (again : Bool)
  /-- The script was ended from outside. -/
  | script
deriving DecidableEq, Repr, Inhabited

/-- A part of the run of a script. -/
abbrev Run := ExceptT Leaving (StateM State)

namespace Run

/-- The environment. -/
def environment : Run Environment := return (← get).environment

/-- Changes the environment. -/
def changeEnvironment (f : Environment → Environment) : Run Unit :=
  modify fun s => { s with environment := f s.environment }

/-- Changes the world. -/
def changeWorld (f : World → World) : Run Unit := modify fun s => { s with world := f s.world }

/-- Ends a command with a status. -/
def ended (status : Nat) : Run Unit := changeEnvironment fun e => { e with status }

/-- Adds a channel with a text. -/
def addChannel (text : Bytes) : Run ChannelId := do
  let s ← get
  let (id, world) := s.world.addChannel text
  set { s with world }
  return id

/-- The channel of a descriptor. -/
def channel? (descriptor : Nat) : Run (Option ChannelId) := do
  return (← environment).descriptors.get? descriptor

/-- Writes to a descriptor. -/
def write (descriptor : Nat) (text : Bytes) : Run Unit := do
  if let some id ← channel? descriptor then changeWorld (·.write id text)

/-- Prints text. -/
def print (text : Bytes) : Run Unit := write 1 text

/-- Prints a line to the errors. -/
def printError (line : Bytes) : Run Unit := write 2 (line ++ ['\n'])

/-- Complains about a command. -/
def complain (message : Bytes) : Run Unit := do
  let e ← environment
  let line := match e.dialect with
    | .plain => s!": {e.line}: "
    | .rich => s!": line {e.line}: "
  printError (e.name ++ bytesOf line ++ message)

/-- Complains and ends the shell. -/
def failShell {α : Type} (message : Bytes) : Run α := do
  complain message
  ended 2
  throw .shell

/-- Takes all text from a descriptor. -/
def readAll (descriptor : Nat) : Run Bytes := do
  match ← channel? descriptor with
  | none => return []
  | some id =>
    let text := (← get).world.textOf id
    changeWorld (·.leave id [])
    return text

/-- Takes a line from a descriptor, and whether it had an end. -/
def readLine (descriptor : Nat) : Run (Bytes × Bool) := do
  match ← channel? descriptor with
  | none => return ([], false)
  | some id =>
    let text := (← get).world.textOf id
    let line := text.takeWhile (· != '\n')
    let rest := text.drop line.length
    changeWorld (·.leave id (rest.drop 1))
    return (line, !rest.isEmpty)

/-- The value of a variable. -/
def valueOf? (name : Bytes) : Run (Option Bytes) := do
  return (← environment).values.get? name

/-- Sets a variable. -/
def setVariable (name value : Bytes) : Run Unit :=
  changeEnvironment fun e => { e with values := e.values.insert name value }

/-- Takes a variable away. -/
def unsetVariable (name : Bytes) : Run Unit :=
  changeEnvironment fun e => { e with values := e.values.erase name }

/-- The text of a file, if there is one. -/
def fileText? (path : Bytes) : Run (Option Bytes) := do
  let s ← get
  return (s.world.fileAt? path).map s.world.textOf

/-- Runs an action in a copy of the environment, of which only the status is kept. -/
def inSubshell (action : Run Unit) : Run Unit := do
  let before ← environment
  changeEnvironment fun e => { e with traps := ∅ }
  try action
  catch leaving => if leaving = .script then throw leaving
  let status := (← environment).status
  changeEnvironment fun _ => { before with status }

/-- Runs an action and puts a part of the environment back to what it was, however the action
ends. -/
def keeping (restore : (before now : Environment) → Environment) (action : Run Unit) :
    Run Unit := do
  let before ← environment
  try action
  catch leaving =>
    changeEnvironment (restore before)
    throw leaving
  changeEnvironment (restore before)

/-- Runs an action, after which the descriptors are what they were. -/
def keepingDescriptors (action : Run Unit) : Run Unit :=
  keeping (fun before now => { now with descriptors := before.descriptors }) action

/-- Makes a descriptor lead to a channel. -/
def openDescriptor (descriptor : Nat) (id : ChannelId) : Run Unit :=
  changeEnvironment fun e => { e with descriptors := e.descriptors.insert descriptor id }

/-- Runs an action with a descriptor that leads to a channel. -/
def withDescriptor (descriptor : Nat) (id : ChannelId) (action : Run Unit) : Run Unit :=
  keepingDescriptors do
    openDescriptor descriptor id
    action

/-- What an action prints in a copy of the environment. -/
def captured (action : Run Unit) : Run Bytes := do
  let id ← addChannel []
  inSubshell (withDescriptor 1 id action)
  let text := (← get).world.textOf id
  changeWorld (·.leave id [])
  return text

end Run

end NodeScript.Shell
