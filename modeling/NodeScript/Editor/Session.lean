import NodeScript.Assets.AssetStore
import NodeScript.Editor.Searcher
import NodeScript.Editor.Settings
import NodeScript.Translation.Compile

/-!
A session: one graph being edited, with everything around it.
-/

namespace NodeScript

/-- Why a session could not do something. -/
inductive SessionError where
  | asset (error : AssetError)
  | store (error : StoreError)
  /-- The stacks around a changed node go round without end. -/
  | endlessStacks
deriving DecidableEq, Repr

/-- The wording of the error. -/
def SessionError.message : SessionError → String
  | .asset error => error.message
  | .store error => error.message
  | .endlessStacks => "The stacks around a changed node stand in one another"

instance : ToString SessionError := ⟨SessionError.message⟩

/-- A session. -/
structure Session where
  store : EditorStore
  database : TypeDatabase
  extensions : OrderedMap String NodeExtension
  translators : OrderedMap String NodeTranslator
  library : NodeLibrary
  artist : NodeArtist
  settings : ScriptSettings
  trace : TraceRecord

namespace Session

/-- Opens a graph, for whose new elements a supply gives the identities. -/
def opened (g : Graph) (supply : IdSupply) (database : TypeDatabase) (settings : ScriptSettings)
    (extensions : OrderedMap String NodeExtension)
    (translators : OrderedMap String NodeTranslator) : Session where
  store := { Store.new (EditorState.opened g supply) with
    reducers := editorReducers ⟨database.toOracle, extensions⟩ }
  database
  extensions
  translators
  library := .standard database.methods
  artist := .standard
  settings
  trace := .empty

/-- The graph at hand. -/
def graph (s : Session) : Graph := s.store.state.graph

/-- Carries out an action. -/
def dispatch (s : Session) (action : EditorAction) : Except StoreError Session :=
  (s.store.dispatch action).map fun store => { s with store }

/-- Opens a search for a node to make. -/
def search (s : Session) (target : SearchTarget) : Except StoreError Searcher × Session :=
  let (result, store) := Searcher.opened s.store s.library target
  (result, { s with store })

/-- Brings a view in line with the graph, and forgets the changes. -/
def reconcile (s : Session) (v : View) : Except SessionError (ReconcilePlan × View × Session) :=
  let state := s.store.state
  if state.changes.isEmpty then .ok (.empty, v, s)
  else
    match v.reconcile s.artist state.graph state.changes with
    | none => .error .endlessStacks
    | some (plan, v) =>
      match s.dispatch .acknowledgeChanges with
      | .ok s => .ok (plan, v, s)
      | .error e => .error (.store e)

/-- What the graph is prepared and translated with. -/
def tools (s : Session) : GraphTools := ⟨s.database.toOracle, s.extensions, s.translators⟩

/-- What the graph is compiled with. -/
def compiler (s : Session) (backend : Backend) : ScriptCompiler := ⟨s.tools, backend⟩

/-- Compiles the graph by the settings with a compiler that is asked. What has to be prepared for
that is prepared in a copy. -/
def compileWith {m : Type → Type} [Monad m] (s : Session) (ask : BackendIn m) :
    m (CompilationResult × Session) := do
  let (unprepared, g, _) := s.tools.prepare s.graph s.store.state.supply
  let (result, record) ←
    s.tools.compileWith ask g s.settings.translationOptions (some s.trace)
  return ({ result with errors := unprepared ++ result.errors },
    { s with trace := record.getD s.trace })

/-- Compiles the graph by the settings. -/
def compile (s : Session) (backend : Backend) : CompilationResult × Session :=
  Id.run (s.compileWith backend.within)

/-- Records that the code of a node ran, and returns the node. -/
def recordHit (s : Session) (index frame : Nat) : Option NodeId × Session :=
  let (node, trace) := s.trace.hit s.graph.name index frame
  (node, { s with trace })

/-- Saves the graph. -/
def save {m : Type → Type} [Monad m] (s : Session) (store : AssetStore m) (path : String) :
    m (Except SessionError Session) := do
  match ← store.save path s.graph with
  | .error e => return .error (.asset e)
  | .ok () =>
    match s.dispatch .markSaved with
    | .ok s => return .ok s
    | .error e => return .error (.store e)

end Session

end NodeScript
