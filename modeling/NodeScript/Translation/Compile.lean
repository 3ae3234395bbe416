import NodeScript.Graph.Inference
import NodeScript.Translation.Translate

/-!
Graphs compiled: prepared, translated, written out, and handed to a compiler whose reports are told
of the nodes that their lines come from.
-/

namespace NodeScript

/-- A compiler: what it reports about a unit of a name with a text. -/
abbrev Backend := String → String → List Diagnostic

/-- A compiler that does something while it is asked. -/
abbrev BackendIn (m : Type → Type) := String → String → m (List Diagnostic)

/-- A compiler that does nothing besides. -/
def Backend.within {m : Type → Type} [Monad m] (backend : Backend) : BackendIn m :=
  fun name text => pure (backend name text)

/-- The compiler that has nothing to report. -/
def Backend.accepting : Backend := fun _ _ => []

/-- What graphs are prepared and translated with. -/
structure GraphTools where
  oracle : TypeOracle
  /-- The kinds of nodes that extensions define. -/
  extensions : OrderedMap String NodeExtension
  /-- The translators of extensions. -/
  translators : OrderedMap String NodeTranslator

/-- Tools without extensions. -/
def GraphTools.plain (oracle : TypeOracle) : GraphTools := ⟨oracle, ∅, ∅⟩

/-- What graphs are compiled with. -/
structure ScriptCompiler extends GraphTools where
  backend : Backend

/-- A compiler without extensions. -/
def ScriptCompiler.plain (oracle : TypeOracle) (backend : Backend) : ScriptCompiler :=
  ⟨.plain oracle, backend⟩

/-- A compiled graph. -/
structure CompilationResult where
  unit : CodeUnit
  source : SourceText
  errors : List CompilerError

/-- Whether there are no errors. -/
def CompilationResult.success (r : CompilationResult) : Bool := r.errors.isEmpty

/-- The errors of a node. -/
def CompilationResult.errorsFor (r : CompilationResult) (node : NodeId) : List CompilerError :=
  r.errors.filter (·.node = some node)

namespace GraphTools

/-- What the ports of nodes depend on. -/
def definitionEnv (tools : GraphTools) : DefinitionEnv := ⟨tools.oracle, tools.extensions⟩

/-- Defines the ports that are not defined yet and infers the type arguments of calls. -/
def prepare (tools : GraphTools) (g : Graph) (supply : IdSupply) :
    List CompilerError × Graph × IdSupply :=
  let (undefined, g, supply) := g.defineUndefined tools.definitionEnv supply
  let (uninferred, g, supply) := g.inferAll tools.definitionEnv supply
  (undefined.map (fun (node, e) => nodeError node e.message)
    ++ uninferred.map (fun (node, e) => nodeError node e.message), g, supply)

/-- What is reported about a text as errors of nodes. -/
def locate (source : SourceText) (d : Diagnostic) : CompilerError :=
  ⟨d.message, d.line.bind source.originOfLine, .compilation, d.line⟩

/-- Translates a graph and, unless there are errors, asks a compiler about the code. Runs are traced
if the options say so and there is a record. -/
def compileWith {m : Type → Type} [Monad m] (tools : GraphTools) (ask : BackendIn m) (g : Graph)
    (options : TranslationOptions) (record : Option TraceRecord) :
    m (CompilationResult × Option TraceRecord) := do
  let env : TranslationEnv := ⟨g, tools.oracle, options, tools.translators⟩
  let translation := env.translate (if options.trace then record else none)
  let source := translation.unit.source
  let diagnostics ←
    if translation.errors.isEmpty then ask translation.unit.classDecl.name source.text else pure []
  return (⟨translation.unit, source, translation.errors ++ diagnostics.map (locate source)⟩,
    if options.trace then translation.trace else record)

end GraphTools

/-- Translates a graph and, unless there are errors, hands it to the compiler. -/
def ScriptCompiler.compile (c : ScriptCompiler) (g : Graph) (options : TranslationOptions)
    (record : Option TraceRecord) : CompilationResult × Option TraceRecord :=
  Id.run (c.compileWith c.backend.within g options record)

/-- Where a compiler does nothing besides, nothing but the result comes of a compilation. -/
theorem ScriptCompiler.compileWith_within {m : Type → Type} [Monad m] [LawfulMonad m]
    (c : ScriptCompiler) (g : Graph) (options : TranslationOptions) (record : Option TraceRecord) :
    c.compileWith (c.backend.within : BackendIn m) g options record =
      pure (c.compile g options record) := by
  simp only [compile, GraphTools.compileWith, Backend.within]
  generalize TranslationEnv.translate _ _ = translation
  cases translation.errors.isEmpty with
  | true => exact pure_bind _ _
  | false => exact pure_bind _ _

theorem ScriptCompiler.compile_eq (c : ScriptCompiler) (g : Graph) (options : TranslationOptions)
    (record : Option TraceRecord) :
    let env : TranslationEnv := ⟨g, c.oracle, options, c.translators⟩
    let translation := env.translate (if options.trace then record else none)
    let source := translation.unit.source
    let diagnostics :=
      if translation.errors.isEmpty then c.backend translation.unit.classDecl.name source.text else
        []
    c.compile g options record =
      (⟨translation.unit, source,
          translation.errors ++ diagnostics.map (GraphTools.locate source)⟩,
        if options.trace then translation.trace else record) := by
  simp only [compile, GraphTools.compileWith, Backend.within]
  generalize TranslationEnv.translate _ _ = translation
  cases translation.errors.isEmpty with
  | true => rfl
  | false => rfl

end NodeScript
