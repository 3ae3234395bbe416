import NodeScript.Assets.Files
import NodeScript.Document.GraphCodec

/-!
Graphs as they are stored: a document that holds the version of the format and the graph.
-/

namespace NodeScript

/-- The version of the format that is written, which is the newest that can be read. -/
def graphFormatVersion : Nat := 1

/-- The extension of the files of graphs. -/
def graphFileExtension : String := "ordoscript"

/-- A graph with the version of the format. -/
structure GraphAsset where
  version : Nat
  graph : Graph

/-- Why a graph could not be loaded or saved. -/
inductive AssetError where
  | notFound (path : String)
  | file (fault : FileFault)
  | parse (error : ReadError)
  | unsupportedVersion (found : Nat)
  | walk (root : String) (fault : FileFault)
deriving DecidableEq, Repr

/-- The wording of a fault that was met while the files below a directory were looked for. -/
def walkMessage (root : String) (fault : FileFault) : String :=
  s!"IO error for operation on {root}: {fault.message}"

/-- The wording of the error. -/
def AssetError.message : AssetError → String
  | .notFound path => s!"Asset not found: {path}"
  | .file fault => s!"I/O error: {fault.message}"
  | .parse error => s!"Failed to parse graph: {error.text}"
  | .unsupportedVersion found =>
    s!"Graph version {String.ofList (natDigits found)} is newer than supported version "
      ++ String.ofList (natDigits graphFormatVersion)
  | .walk root fault => s!"Failed to list assets: {walkMessage root fault}"

instance : ToString AssetError := ⟨AssetError.message⟩

/-- What lies behind the error, each reason followed by its own. -/
def AssetError.reasons : AssetError → List String
  | .file fault => [fault.message]
  | .parse error => [error.text]
  | .walk root fault => [walkMessage root fault, fault.message]
  | _ => []

namespace GraphAsset

/-- A graph in the version of the format that is written. -/
def ofGraph (g : Graph) : GraphAsset := ⟨graphFormatVersion, g⟩

/-- The document of a graph. -/
def encode (a : GraphAsset) : Tree :=
  encodeRecord "GraphAsset" [("version", encodeInteger a.version), ("graph", a.graph.encode)]

/-- Reads the document of a graph. -/
def reader : Reader GraphAsset :=
  .record "GraphAsset" { version := 0, graph := .empty "" } [
    .required "version" (.integer .u32) fun v a => { a with version := v.toNat },
    .required "graph" Graph.reader fun v a => { a with graph := v }]

/-- The text of a stored graph. -/
def toDocument (a : GraphAsset) : String := a.encode.pretty

/-- Reads a stored graph. Formats that are newer than the one that is written are refused. -/
def ofDocument (text : String) : Except AssetError GraphAsset :=
  match readDocument reader text with
  | .error e => .error (.parse e)
  | .ok a =>
    if a.version > graphFormatVersion then .error (.unsupportedVersion a.version) else .ok a

end GraphAsset

end NodeScript
