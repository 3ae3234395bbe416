import NodeScript.Editor.Session
import NodeScript.Report.Build
import NodeScript.Report.Graph

/-!
Reports of what an editor offers and does.
-/

namespace NodeScript

/-- The name of a category. -/
def NodeCategory.title : NodeCategory → String
  | .events => "Events"
  | .containers => "Containers"
  | .flow => "Flow"
  | .values => "Values"
  | .math => "Math"
  | .functions => "Functions"
  | .custom => "Custom"

instance : Reported NodeTemplate where
  report t := .object [("id", t.id), ("name", t.name), ("category", t.category.title),
    ("description", t.description), ("kind", t.kind)]

instance : Reported ElementRef where
  report
    | .node id => report id
    | .edge id => report id

instance : Reported ChangeList where
  report c := .object [("changed", c.changed.keys), ("deleted_edges", c.deletedEdges.keys),
    ("empty", c.isEmpty)]

instance : Reported ReconcilePlan where
  report p := .object [("delete", p.removals.keys), ("nodes", p.nodes.keys),
    ("edges", p.edges.keys), ("empty", p.isEmpty)]

instance : Reported View where
  report v := .array (v.visuals.entries.map fun (element, visual) =>
    .array [element, visual.appearance.style, visual.appearance.label, visual.parent])

instance : Reported ViewOperation where
  report
    | .add element => .array [.text "add", element]
    | .remove element => .array [.text "remove", element]

instance : Reported EditorState where
  report s := .object [("changes", s.changes), ("dirty", s.dirty)]

instance : Reported CompilerSettings := ⟨fun c => .array [c.program, c.arguments]⟩

instance : Reported ScriptSettings where
  report s := .object [("version", s.version), ("options", s.translationOptions),
    ("asset_dir", s.assetDirectory), ("extension", s.graphExtension), ("compiler", s.compiler)]

instance : Reported CancelToken := ⟨fun token => report token.number⟩

instance : Reported TickStatus where
  report
    | .idle => .text "Idle"
    | .pending => .text "Pending"
    | .applied => .text "Applied"
    | .finished => .text "Finished"

end NodeScript
