import NodeScript.Assets.GraphAsset
import NodeScript.Translation.Context

/-!
The settings of a project: how its graphs are translated, where they are, and what compiles the
code. They are stored in a file beside the graphs.
-/

namespace NodeScript

/-- A compiler that is run as a command; it is given the code on its input. -/
structure CompilerSettings where
  program : String
  arguments : List String
deriving DecidableEq, Repr, Inhabited

/-- The settings of a project. -/
structure ScriptSettings where
  version : Nat
  namespaceName : Option String
  usings : List String
  baseClass : Option String
  registrationMethod : String
  trace : Bool
  /-- The directory of the graphs, from that of the settings on. -/
  assetDirectory : String
  graphExtension : String
  /-- What compiles the code; without it the code is taken as it is. -/
  compiler : Option CompilerSettings
deriving DecidableEq, Repr

/-- Why settings could not be loaded. -/
inductive SettingsError where
  | file (fault : FileFault)
  | parse (error : ReadError)
  | unsupportedVersion (found : Nat)
deriving DecidableEq, Repr

/-- The version of the settings that is written, which is the newest that can be read. -/
def settingsFormatVersion : Nat := 1

/-- The name of the file of the settings of a project. -/
def settingsFileName : String := "script_settings.ron"

/-- The wording of the error. -/
def SettingsError.message : SettingsError → String
  | .file fault => s!"IO error: {fault.message}"
  | .parse error => s!"Parse error: {error.text}"
  | .unsupportedVersion found =>
    s!"Settings version {String.ofList (natDigits found)} is newer than supported version "
      ++ String.ofList (natDigits settingsFormatVersion)

instance : ToString SettingsError := ⟨SettingsError.message⟩

/-- What lies behind the error. -/
def SettingsError.reasons : SettingsError → List String
  | .file fault => [fault.message]
  | .parse error => [error.text]
  | .unsupportedVersion _ => []

/-- A compiler. -/
def CompilerSettings.encode (c : CompilerSettings) : Tree :=
  encodeRecord "CompilerSettings" [("program", .text c.program),
    ("args", encodeList .text c.arguments)]

/-- Reads a compiler. -/
def CompilerSettings.reader : Reader CompilerSettings :=
  .record "CompilerSettings" { program := "", arguments := [] } [
    .required "program" .text fun v c => { c with program := v },
    .optional "args" (.list .text) fun v c => { c with arguments := v }]

namespace ScriptSettings

/-- The settings of a project that has none. -/
def standard : ScriptSettings where
  version := settingsFormatVersion
  namespaceName := none
  usings := []
  baseClass := none
  registrationMethod := TranslationOptions.standard.registrationMethod
  trace := false
  assetDirectory := "scripts"
  graphExtension := graphFileExtension
  compiler := none

instance : Inhabited ScriptSettings := ⟨standard⟩

/-- The settings as a document. -/
def encode (s : ScriptSettings) : Tree :=
  encodeRecord "ScriptSettings" [("version", encodeInteger s.version),
    ("namespace", encodeOption .text s.namespaceName), ("usings", encodeList .text s.usings),
    ("base_class", encodeOption .text s.baseClass),
    ("registration_method", .text s.registrationMethod), ("trace", encodeBool s.trace),
    ("asset_dir", .text s.assetDirectory), ("graph_extension", .text s.graphExtension),
    ("compiler", encodeOption CompilerSettings.encode s.compiler)]

/-- Reads settings. All but the version may be missing. -/
def reader : Reader ScriptSettings :=
  .record "ScriptSettings" standard [
    .required "version" (.integer .u32) fun v s => { s with version := v.toNat },
    .optional "namespace" (.option .text) fun v s => { s with namespaceName := v },
    .optional "usings" (.list .text) fun v s => { s with usings := v },
    .optional "base_class" (.option .text) fun v s => { s with baseClass := v },
    .optional "registration_method" .text fun v s => { s with registrationMethod := v },
    .optional "trace" .bool fun v s => { s with trace := v },
    .optional "asset_dir" .text fun v s => { s with assetDirectory := v },
    .optional "graph_extension" .text fun v s => { s with graphExtension := v },
    .optional "compiler" (.option CompilerSettings.reader) fun v s => { s with compiler := v }]

/-- The text of settings. -/
def toDocument (s : ScriptSettings) : String := s.encode.pretty

/-- Reads the text of settings. Formats that are newer than the one that is written are refused. -/
def ofDocument (text : String) : Except SettingsError ScriptSettings :=
  match readDocument reader text with
  | .error e => .error (.parse e)
  | .ok s =>
    if s.version > settingsFormatVersion then .error (.unsupportedVersion s.version) else .ok s

/-- How the graphs of a project are translated. -/
def translationOptions (s : ScriptSettings) : TranslationOptions :=
  ⟨s.namespaceName, none, s.baseClass, s.usings, s.registrationMethod, s.trace⟩

/-- Standard settings under which the graphs of a project are translated in a given way. -/
def ofTranslation (o : TranslationOptions) : ScriptSettings :=
  { standard with
    namespaceName := o.namespaceName, usings := o.usings, baseClass := o.baseClass
    registrationMethod := o.registrationMethod, trace := o.trace }

section Files

variable {m : Type → Type} [Monad m] [MonadFiles m]

/-- Loads the settings of a file. -/
def load (path : String) : m (Except SettingsError ScriptSettings) := do
  match ← MonadFiles.readText path with
  | .ok text => return ofDocument text
  | .error fault => return .error (.file fault)

/-- Loads the settings of a project, which may have none. -/
def loadOrStandard (directory : String) : m (Except SettingsError ScriptSettings) := do
  let path := joinPath directory settingsFileName
  if ← MonadFiles.isFile path then load path else return .ok standard

end Files

end ScriptSettings

end NodeScript
