import NodeScript.Build.Batch
import NodeScript.Report.Basic

/-!
Reports of compiled graphs.
-/

namespace NodeScript

instance : Reported TranslationOptions where
  report o := .object [("namespace", o.namespaceName), ("class", o.className),
    ("base", o.baseClass), ("usings", o.usings),
    ("registration", o.registrationMethod), ("trace", o.trace)]

/-- The name of a stage. -/
def CompileStage.title : CompileStage → String
  | .translation => "Translation"
  | .compilation => "Compilation"

instance : Reported CompilerError where
  report e := .object [("message", e.message), ("node", e.node), ("kind", e.stage.title),
    ("line", e.line)]

instance : Reported Diagnostic := ⟨fun d => .array [d.message, d.line]⟩

instance : Reported TraceHit := ⟨fun hit => .array [hit.node, hit.frame]⟩

instance : Reported SourceText where
  report s := .object [("text", s.text), ("lines", s.lineOrigins)]

instance : Reported CompilationResult where
  report r := (report r.source).with [("class", r.unit.classDecl.name), ("success", r.success),
    ("errors", r.errors)]

instance : Reported CompiledGraph where
  report g := .object [("path", g.path), ("class_name", g.className), ("source", g.source)]

instance : Reported FailedGraph where
  report g := .object [("path", g.path), ("errors", g.errors)]

instance : Reported BatchReport where
  report r := .object [("compiled", r.compiled), ("failed", r.failed)]

end NodeScript
