import NodeScript.Assets.AssetStore
import NodeScript.Build.Command
import NodeScript.Build.Arguments
import NodeScript.Document.TypeCodec
import NodeScript.Editor.Session
import NodeScript.Report.Build

/-!
The program that compiles and checks graphs: what it does with files, what it prints, and how it
ends.
-/

namespace NodeScript

/-- How the program ended and what it printed. -/
structure ProgramResult where
  code : Nat
  output : String
  errors : String
deriving DecidableEq, Repr, Inhabited

/-- Why the program failed: what it could not do, and the reasons, each followed by its own. What
was printed before is kept. -/
structure ProgramFailure where
  message : String
  reasons : List String
  printed : String
  complaints : String
deriving DecidableEq, Repr

/-- A part of the program. -/
abbrev Program (m : Type → Type) (α : Type) := ExceptT ProgramFailure m α

/-- A reason behind a number, with its further lines indented below the first. -/
def numberedReason (number : Nat) (reason : String) : String :=
  let digits := String.ofList (natDigits number)
  let blanks := String.ofList (List.replicate (5 - digits.length) ' ')
  blanks ++ digits ++ ": " ++ "\n       ".intercalate (reason.splitOn "\n")

/-- A reason that stands alone. -/
def loneReason (reason : String) : String := "    " ++ "\n    ".intercalate (reason.splitOn "\n")

/-- The text of the reasons. -/
def reasonsText : List String → String
  | [] => ""
  | [reason] => "\n\nCaused by:\n" ++ loneReason reason
  | reasons => "\n\nCaused by:\n" ++ "\n".intercalate (reasons.zipIdx.map fun (reason, i) =>
      numberedReason i reason)

/-- What is printed of a failure. -/
def ProgramFailure.text (f : ProgramFailure) : String :=
  "Error: " ++ f.message ++ reasonsText f.reasons ++ "\n"

/-- The end of a program that failed. -/
def ProgramFailure.result (f : ProgramFailure) : ProgramResult :=
  ⟨1, f.printed, f.complaints ++ f.text⟩

/-- Fails with a message and the reasons for it. -/
def failWith {m : Type → Type} {α : Type} [Monad m] (message : String) (reasons : List String) :
    Program m α :=
  throw ⟨message, reasons, "", ""⟩

/-- Fails if something failed, with a message in front of the reasons. -/
def orFail {m : Type → Type} {ε α : Type} [Monad m] (message : String) (reasons : ε → List String)
    (action : m (Except ε α)) : Program m α := do
  match ← (action : m _) with
  | .ok value => return value
  | .error e => failWith message (reasons e)

/-- An error with what lies behind it. -/
def FileFault.reasons (fault : FileFault) : List String := [fault.message]

/-- The settings that are used without an argument are looked for beside the graph. -/
def directoryOf (path : String) : String := (parentPath? path).getD "."

/-- The line of an error of a graph. -/
def CompilerError.reportLine (e : CompilerError) : String :=
  match e.node with
  | some node => s!"error [{node.uuid.text}]: {e.message}\n"
  | none => s!"error: {e.message}\n"

namespace Program

variable {m : Type → Type} [Monad m] [MonadFiles m]

/-- The types: those that are always there, and those of a file. -/
def loadTypes (path : Option String) : Program m TypeDatabase := do
  match path with
  | none => return .standard
  | some path =>
    let text ← orFail s!"Failed to read {path}" FileFault.reasons (MonadFiles.readText path)
    match TypeDatabase.ofDocument text with
    | .ok extra => return TypeDatabase.standard.merge extra
    | .error e => failWith s!"Invalid type database {path}" [e.text]

/-- The settings: those of a file, or those of a project. -/
def loadSettings (path : Option String) (project : String) : Program m ScriptSettings :=
  orFail "Failed to load script settings" (fun e => e.message :: e.reasons) <|
    match path with
    | some path => ScriptSettings.load path
    | none => ScriptSettings.loadOrStandard project

/-- The graph of a file. -/
def loadGraph (path : String) : Program m Graph := do
  match fileName? path with
  | none => failWith s!"Not a graph file: {path}" []
  | some name =>
    let assets : FileAssets := ⟨directoryOf path, graphFileExtension⟩
    orFail s!"Failed to load {path}" (fun e => e.message :: e.reasons) (assets.load name)

/-- The compiler of settings. -/
def backend [MonadCommands m] (settings : ScriptSettings) : BackendIn m :=
  match settings.compiler with
  | none => Backend.accepting.within
  | some compiler => .command compiler.program compiler.arguments

/-- Compiles a graph and writes or prints the code. -/
def compile [MonadCommands m] (path : String) (output : Option String) (database : TypeDatabase)
    (settings : ScriptSettings) : Program m ProgramResult := do
  let g ← loadGraph path
  let session := Session.opened g g.freshSupply database settings ∅ ∅
  let (result, _) ← (session.compileWith (backend settings) : m _)
  if !result.success then
    throw { message := s!"{path} failed with {result.errors.length} error(s)", reasons := []
            printed := "", complaints := String.join (result.errors.map CompilerError.reportLine) }
  match output with
  | none => return ⟨0, result.source.text, ""⟩
  | some output =>
    orFail s!"Failed to write {output}" FileFault.reasons
      (MonadFiles.writeText output result.source.text)
    return ⟨0, "", ""⟩

/-- Writes the code of compiled graphs, each to a file that is named after its class. -/
def writeCompiled (directory : String) : List CompiledGraph → Program m Unit
  | [] => return ()
  | g :: rest => do
    let file := joinPath directory (g.className ++ ".cs")
    orFail s!"Failed to write {file}" FileFault.reasons (MonadFiles.writeText file g.source)
    writeCompiled directory rest

/-- The lines about the graphs that failed. -/
def failureLines (failed : List FailedGraph) : String :=
  String.join (failed.map fun g =>
    g.path ++ ":\n" ++ String.join (g.errors.map fun e => "  " ++ e ++ "\n"))

/-- Compiles the graphs of a project and writes the code of those that could be compiled. -/
def buildAll [MonadCommands m] (project : String) (output : Option String) (json : Bool)
    (database : TypeDatabase) (settings : ScriptSettings) : Program m ProgramResult := do
  let assets : FileAssets := ⟨joinPath project settings.assetDirectory, settings.graphExtension⟩
  let paths ← orFail "Failed to list graph assets" (fun e => e.message :: e.reasons)
    (assets.list (m := m))
  let tools := GraphTools.plain database.toOracle
  let (built, _) ← (tools.buildAllWith (backend settings) assets.store settings.translationOptions
    none paths : m _)
  match output with
  | none => pure ()
  | some directory =>
    orFail s!"Failed to create {directory}" FileFault.reasons
      (MonadFiles.createDirectories directory)
    writeCompiled directory built.compiled
  let printed := if json then (report built).pretty ++ "\n"
    else s!"{built.compiled.length} compiled, {built.failed.length} failed\n"
  let complaints := if json then "" else failureLines built.failed
  if built.success then return ⟨0, printed, complaints⟩
  else throw ⟨s!"{built.failed.length} graph(s) failed", [], printed, complaints⟩

/-- Checks that a graph survives being stored. -/
def check (path : String) : Program m ProgramResult := do
  let g ← loadGraph (m := m) path
  let (survives, _) := (MemoryAssets.store.checkRoundTrip "check" g).run ∅
  match survives with
  | .error e => failWith e.message e.reasons
  | .ok false => failWith s!"{path} does not survive a save and reload" []
  | .ok true =>
    let s := g.summary
    return ⟨0, s!"{s.name}: {s.nodes.length} nodes, {s.connections.length} edges, " ++
      s!"{s.variableCount} variables\n", ""⟩

/-- Does what the arguments ask for. -/
def perform [MonadCommands m] (i : Invocation) : Program m ProgramResult := do
  let database ← loadTypes (m := m) i.types
  match i.command with
  | .compile graph output =>
    let settings ← loadSettings i.settings (directoryOf graph)
    compile graph output database settings
  | .buildAll project output json =>
    let settings ← loadSettings i.settings project
    buildAll project output json database settings
  | .check graph => check graph

end Program

/-- Runs the program with its arguments. -/
def runProgram {m : Type → Type} [Monad m] [MonadFiles m] [MonadCommands m]
    (arguments : List String) : m ProgramResult := do
  match Invocation.ofArguments arguments with
  | .error (.helpWanted topic) => return ⟨0, topic.page.text, ""⟩
  | .error .wrong => return ⟨2, "", HelpTopic.program.page.text⟩
  | .ok invocation =>
    match ← ExceptT.run (Program.perform invocation) with
    | .ok result => return result
    | .error failure => return failure.result

/-- Runs the program on a tree of files. What it writes to the devices of its outputs is shown in
front of what it prints. -/
def runProgramIn [MonadCommands (StateM FileTree)] (t : FileTree) (arguments : List String) :
    ProgramResult × FileTree :=
  let (result, after) := (runProgram (m := StateM FileTree) arguments).run t
  (⟨result.code, after.shown "stdout" ++ result.output, after.shown "stderr" ++ result.errors⟩,
    after)

end NodeScript
