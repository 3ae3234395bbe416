import NodeScript.Editor.Session
import NodeScript.Report.Basic

/-!
Reports of errors: the kind of the error and its wording. Of what went wrong with files and
documents only the kind is told.
-/

namespace NodeScript

/-- The report of an error. -/
def faultReport (kind message : String) : JsonValue :=
  .object [("error", kind), ("message", message)]

/-- The report of an error that is not worded. -/
def faultKind (kind : String) : JsonValue := .object [("error", kind)]

/-- The kind of an error. -/
def TypeTextError.kind : TypeTextError → String
  | .unexpectedEnd _ => "Type.UnexpectedEnd"
  | .unexpected _ _ _ => "Type.Unexpected"

instance : Reported TypeTextError where
  report e :=
    match e with
    | .unexpectedEnd _ => faultReport e.kind e.message
    | .unexpected _ found position => (faultReport e.kind e.message).with
        [("found", String.singleton found), ("position", position)]

/-- The kind of an error. -/
def SolveError.kind : SolveError → String
  | .parameterOutOfRange _ _ => "Inference.ParameterOutOfRange"
  | .conflict _ _ _ => "Inference.Conflict"
  | .mismatch _ _ => "Inference.Mismatch"

instance : Reported SolveError := ⟨fun e => faultReport e.kind e.message⟩

/-- The kind of an error. -/
def DefinitionError.kind : DefinitionError → String
  | .nodeNotFound _ => "Definition.NodeNotFound"
  | .unknownVariable _ => "Definition.UnknownVariable"
  | .unknownMethod _ => "Definition.UnknownMethod"
  | .unknownNodeType _ => "Definition.UnknownNodeType"
  | .duplicatePort _ => "Definition.DuplicatePort"

instance : Reported DefinitionError := ⟨fun e => faultReport e.kind e.message⟩

/-- The kind of an error. -/
def ConnectionError.kind : ConnectionError → String
  | .nodeNotFound _ => "Connection.NodeNotFound"
  | .portNotFound _ => "Connection.PortNotFound"
  | .portNameNotFound _ => "Connection.PortNameNotFound"
  | .wrongDirection => "Connection.WrongDirection"
  | .incompatiblePorts => "Connection.IncompatiblePorts"
  | .portAlreadyConnected _ => "Connection.PortAlreadyConnected"
  | .selfLoop => "Connection.SelfLoop"

instance : Reported ConnectionError := ⟨fun e => faultReport e.kind e.message⟩

/-- The kind of an error. -/
def GraphError.kind : GraphError → String
  | .nodeNotFound _ => "Graph.NodeNotFound"
  | .portNotFound _ => "Graph.PortNotFound"
  | .notAStack _ => "Graph.NotAStack"
  | .notAFunctionCall _ => "Graph.NotAFunctionCall"
  | .notStackable _ => "Graph.NotStackable"
  | .notAllowed _ => "Graph.NotAllowed"
  | .locked _ => "Graph.Locked"
  | .definition e => e.kind
  | .connection e => e.kind

instance : Reported GraphError := ⟨fun e => faultReport e.kind e.message⟩

/-- The kind of an error. -/
def InferenceError.kind : InferenceError → String
  | .solve e => e.kind
  | .notAFunctionCall _ => "Inference.NotAFunctionCall"
  | .definition e => e.kind

instance : Reported InferenceError := ⟨fun e => faultReport e.kind e.message⟩

instance : Reported AssetError where
  report e :=
    match e with
    | .notFound _ => faultReport "Asset.NotFound" e.message
    | .unsupportedVersion _ => faultReport "Asset.UnsupportedVersion" e.message
    | .file _ => faultKind "Asset.Io"
    | .parse _ => faultKind "Asset.Parse"
    | .walk _ _ => faultKind "Asset.Walk"

instance : Reported StoreError where
  report e :=
    match e with
    | .noReducer action => .object [("error", .text "Store.NoReducer"), ("action", action)]
    | .rejected action message =>
      .object [("error", .text "Store.Rejected"), ("action", action), ("message", message)]
    | .operationPending => faultReport "Store.OperationPending" e.message

instance : Reported SettingsError where
  report e :=
    match e with
    | .unsupportedVersion _ => faultReport "Settings.UnsupportedVersion" e.message
    | .file _ => faultKind "Settings.Io"
    | .parse _ => faultKind "Settings.Parse"

instance : Reported SessionError where
  report e :=
    match e with
    | .asset e => report e
    | .store e => report e
    | .endlessStacks => faultReport "Session.EndlessStacks" e.message

end NodeScript
