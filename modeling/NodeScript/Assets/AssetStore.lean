import NodeScript.Assets.GraphAsset

/-!
Places where graphs are stored by path: in memory, or as files below a directory.

The structure of a graph at a glance, by which it is checked that a graph survives being stored.
-/

namespace NodeScript

/-! ### Stores -/

/-- A place where graphs are stored. -/
structure AssetStore (m : Type → Type) where
  /-- The graph of a path. -/
  load : String → m (Except AssetError Graph)
  /-- Stores the text of a graph in place of what was there. -/
  put : String → String → m (Except AssetError Unit)
  /-- Whether there is something at a path. -/
  has : String → m Bool
  /-- Takes away what is at a path and says whether something was there. -/
  delete : String → m Bool
  /-- The paths of all graphs, sorted. -/
  list : m (Except AssetError (List String))

/-- Stores a graph in place of what was there. -/
def AssetStore.save {m : Type → Type} (store : AssetStore m) (path : String) (g : Graph) :
    m (Except AssetError Unit) :=
  store.put path (GraphAsset.ofGraph g).toDocument

/-- Texts in order; of two texts the first character that differs decides. -/
def sortTexts (texts : List String) : List String := texts.mergeSort fun a b => decide (a ≤ b)

/-- Reads the graph of a text. -/
def graphOfText (text : String) : Except AssetError Graph :=
  (GraphAsset.ofDocument text).map GraphAsset.graph

/-- Stored graphs that are kept in memory: texts by path. -/
abbrev MemoryAssets := OrderedMap String String

namespace MemoryAssets

/-- The graph of a path. -/
def load (a : MemoryAssets) (path : String) : Except AssetError Graph :=
  match a.get? path with
  | some text => graphOfText text
  | none => .error (.notFound path)

/-- The paths of all graphs, sorted. -/
def paths (a : MemoryAssets) : List String := sortTexts a.keys

/-- The place in memory. -/
def store : AssetStore (StateM MemoryAssets) where
  load path := do return (← get).load path
  put path text := do
    modify fun a => a.insert path text
    return .ok ()
  has path := do return (← get).contains path
  delete path := modifyGet fun a => (a.contains path, a.erase path)
  list := do return .ok (← get).paths

end MemoryAssets

/-- Graphs as files below a directory. -/
structure FileAssets where
  root : String
  /-- The extension by which the files of graphs are known. -/
  extension : String

namespace FileAssets

variable {m : Type → Type} [Monad m] [MonadFiles m]

/-- The path of the file of a graph. -/
def filePath (a : FileAssets) (path : String) : String := joinPath a.root path

/-- The graph of a path. -/
def load (a : FileAssets) (path : String) : m (Except AssetError Graph) := do
  if ← MonadFiles.isFile (a.filePath path) then
    match ← MonadFiles.readText (a.filePath path) with
    | .ok text => return graphOfText text
    | .error fault => return .error (.file fault)
  else return .error (.notFound path)

/-- Stores a text as a file, in directories that are made for it. -/
def put (a : FileAssets) (path text : String) : m (Except AssetError Unit) := do
  let directory := (parentPath? (a.filePath path)).getD ""
  match ← MonadFiles.createDirectories directory with
  | .error fault => return .error (.file fault)
  | .ok () =>
    match ← MonadFiles.writeText (a.filePath path) text with
    | .ok () => return .ok ()
    | .error fault => return .error (.file fault)

/-- Whether a file below the directory is that of a graph. -/
def isGraphFile (a : FileAssets) (path : String) : Bool :=
  ((fileName? (a.filePath path)).bind fileExtension?) = some a.extension

/-- The paths of all graphs, sorted. -/
def list (a : FileAssets) : m (Except AssetError (List String)) := do
  match ← MonadFiles.filesBelow a.root with
  | .ok files => return .ok (sortTexts (files.filter a.isGraphFile))
  | .error fault => return .error (.walk a.root fault)

/-- The place in files. -/
def store (a : FileAssets) : AssetStore m where
  load := a.load
  put := a.put
  has path := MonadFiles.isFile (a.filePath path)
  delete path := MonadFiles.remove (a.filePath path)
  list := a.list

end FileAssets

/-! ### Graphs at a glance -/

/-- A node at a glance. -/
structure NodeSummary where
  id : NodeId
  typeId : String
  children : List NodeId
deriving DecidableEq, Repr

/-- An edge at a glance. -/
structure Connection where
  source : NodeId
  output : String
  target : NodeId
  input : String
deriving DecidableEq, Repr

/-- Connections are ordered by source, output, target and input. -/
def Connection.notBehind (a b : Connection) : Bool :=
  if a.source ≠ b.source then a.source.uuid.below b.source.uuid
  else if a.output ≠ b.output then a.output < b.output
  else if a.target ≠ b.target then a.target.uuid.below b.target.uuid
  else a.input ≤ b.input

/-- A graph at a glance. -/
structure GraphSummary where
  name : String
  nodes : List NodeSummary
  connections : List Connection
  variableCount : Nat
deriving DecidableEq, Repr

/-- The name of a port, which is empty if the port is not there. -/
def Graph.portName (g : Graph) (p : PortRef) : String :=
  (((g.node? p.node).bind fun n => n.port? p.port).map (·.name)).getD ""

/-- A graph at a glance. -/
def Graph.summary (g : Graph) : GraphSummary where
  name := g.name
  nodes := g.nodes.values.map fun n => ⟨n.id, n.kind.typeId, n.children⟩
  connections := (g.edges.values.map fun e =>
    ⟨e.output.node, g.portName e.output, e.input.node, g.portName e.input⟩).mergeSort
      Connection.notBehind
  variableCount := g.vars.size

/-- Stores a graph, loads it again, and says whether it looks the same. -/
def AssetStore.checkRoundTrip {m : Type → Type} [Monad m] (store : AssetStore m) (path : String)
    (g : Graph) : m (Except AssetError Bool) := do
  match ← store.save path g with
  | .error e => return .error e
  | .ok () =>
    match ← store.load path with
    | .error e => return .error e
    | .ok reloaded => return .ok (g.summary = reloaded.summary)

end NodeScript
