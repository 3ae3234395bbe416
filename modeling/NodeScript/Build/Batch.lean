import NodeScript.Assets.AssetStore
import NodeScript.Graph.Basic
import NodeScript.Translation.Compile

/-!
Many graphs compiled one after the other. A graph that cannot be loaded or compiled does not keep
the others from being compiled.
-/

namespace NodeScript

/-- A graph that was compiled without errors. -/
structure CompiledGraph where
  path : String
  className : String
  source : String
deriving DecidableEq, Repr

/-- A graph that was not, with the wordings of the errors. -/
structure FailedGraph where
  path : String
  errors : List String
deriving DecidableEq, Repr

/-- What came of a build. -/
structure BatchReport where
  compiled : List CompiledGraph
  failed : List FailedGraph
deriving DecidableEq, Repr, Inhabited

/-- Whether every graph was compiled. -/
def BatchReport.success (r : BatchReport) : Bool := r.failed.isEmpty

/-- What came of one graph. -/
inductive BatchOutcome where
  | compiled (graph : CompiledGraph)
  | failed (graph : FailedGraph)
deriving DecidableEq, Repr

/-- The report of outcomes. -/
def BatchReport.ofOutcomes (outcomes : List BatchOutcome) : BatchReport where
  compiled := outcomes.filterMap fun
    | .compiled graph => some graph
    | .failed _ => none
  failed := outcomes.filterMap fun
    | .compiled _ => none
    | .failed graph => some graph

/-- What comes of a path whose graph was compiled, behind errors in its preparation. -/
def CompilationResult.outcome (r : CompilationResult) (path : String)
    (unprepared : List CompilerError) : BatchOutcome :=
  let errors := unprepared ++ r.errors
  if errors.isEmpty then .compiled ⟨path, r.unit.classDecl.name, r.source.text⟩
  else .failed ⟨path, errors.map CompilerError.message⟩

namespace GraphTools

variable {m : Type → Type} [Monad m]

/-- Prepares and compiles a graph that is stored at a path. -/
def buildGraphWith (tools : GraphTools) (ask : BackendIn m) (options : TranslationOptions)
    (record : Option TraceRecord) (path : String) (g : Graph) :
    m (BatchOutcome × Option TraceRecord) := do
  let (unprepared, g, _) := tools.prepare g g.freshSupply
  let (result, record) ← tools.compileWith ask g options record
  return (result.outcome path unprepared, record)

/-- Loads, prepares and compiles the graph of a path. -/
def buildPathWith (tools : GraphTools) (ask : BackendIn m) (store : AssetStore m)
    (options : TranslationOptions) (record : Option TraceRecord) (path : String) :
    m (BatchOutcome × Option TraceRecord) := do
  match ← store.load path with
  | .error e => return (.failed ⟨path, [e.message]⟩, record)
  | .ok g => tools.buildGraphWith ask options record path g

/-- The outcomes of the graphs of paths. -/
def buildPathsWith (tools : GraphTools) (ask : BackendIn m) (store : AssetStore m)
    (options : TranslationOptions) :
    Option TraceRecord → List String → m (List BatchOutcome × Option TraceRecord)
  | record, [] => return ([], record)
  | record, path :: rest => do
    let (outcome, record) ← tools.buildPathWith ask store options record path
    let (outcomes, record) ← buildPathsWith tools ask store options record rest
    return (outcome :: outcomes, record)

/-- Builds the graphs of paths. Every class is named after its graph, whatever the options say. -/
def buildAllWith (tools : GraphTools) (ask : BackendIn m) (store : AssetStore m)
    (options : TranslationOptions) (record : Option TraceRecord) (paths : List String) :
    m (BatchReport × Option TraceRecord) := do
  let (outcomes, record) ←
    tools.buildPathsWith ask store { options with className := none } record paths
  return (.ofOutcomes outcomes, record)

end GraphTools

namespace ScriptCompiler

/-- Prepares and compiles a graph that is stored at a path. -/
def buildGraph (c : ScriptCompiler) (options : TranslationOptions) (record : Option TraceRecord)
    (path : String) (g : Graph) : BatchOutcome × Option TraceRecord :=
  Id.run (c.buildGraphWith c.backend.within options record path g)

/-- Builds the graphs of paths. -/
def buildAll {m : Type → Type} [Monad m] (c : ScriptCompiler) (store : AssetStore m)
    (options : TranslationOptions) (record : Option TraceRecord) (paths : List String) :
    m (BatchReport × Option TraceRecord) :=
  c.buildAllWith c.backend.within store options record paths

end ScriptCompiler

end NodeScript
