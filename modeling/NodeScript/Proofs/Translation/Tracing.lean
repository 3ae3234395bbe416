import NodeScript.Proofs.Translation.Assembly
import NodeScript.Proofs.Translation.TraceRuns

/-!
The record of traced runs in the translation. A graph is translated with the numbers that its own
nodes get, and these are given out anew in every translation; so what a record holds of other graphs,
or of a graph of the same name that was translated before, has no part in the code.
-/

namespace NodeScript

/-- Two records, if there are any, have the same numbers for a graph. -/
def AgreeOn (graph : String) (t t' : Option TraceRecord) : Prop :=
  t.map (·.nodesOf graph) = t'.map (·.nodesOf graph)

/-- A part of the translation that, of a record, reads and changes the numbers of one graph only, and
that neither makes a record nor takes it away. -/
def TracesOnly (graph : String) {α : Type} (m : Translate α) : Prop :=
  ∀ s : TranslatorState, (m.run s).2.trace.isSome = s.trace.isSome ∧
    ∀ t, AgreeOn graph t s.trace → ∃ t', AgreeOn graph t' (m.run s).2.trace ∧
      m.run { s with trace := t } = ((m.run s).1, { (m.run s).2 with trace := t' })

/-- The number of a node and the numbers of its graph behind it depend on those of the graph. -/
theorem TraceRecord.register_congr {r r' : TraceRecord} {graph : String}
    (same : r.nodesOf graph = r'.nodesOf graph) (node : NodeId) :
    (r.register graph node).1 = (r'.register graph node).1 ∧
      (r.register graph node).2.nodesOf graph = (r'.register graph node).2.nodesOf graph := by
  refine ⟨?_, by rw [nodesOf_register, nodesOf_register, same]⟩
  unfold register
  rw [same]
  dsimp only
  split <;> rfl

namespace TracesOnly

variable {graph : String} {α β : Type}

/-- What does not look at the record and leaves it as it is. -/
theorem aside {m : Translate α} (kept : ∀ s : TranslatorState, (m.run s).2.trace = s.trace)
    (blind : ∀ (s : TranslatorState) t,
      m.run { s with trace := t } = ((m.run s).1, { (m.run s).2 with trace := t })) :
    TracesOnly graph m := by
  intro s
  have still := kept s
  refine ⟨congrArg Option.isSome still, fun t agree => ⟨t, ?_, blind s t⟩⟩
  rw [still]
  exact agree

theorem modifyContext (change : TranslationContext → TranslationContext) :
    TracesOnly graph (modifyContext change) := aside (fun _ => rfl) fun _ _ => rfl

theorem bind {m : Translate α} {f : α → Translate β} (first : TracesOnly graph m)
    (next : ∀ a, TracesOnly graph (f a)) : TracesOnly graph (m >>= f) := by
  intro s
  obtain ⟨present, run⟩ := first s
  obtain ⟨present', run'⟩ := next (m.run s).1 (m.run s).2
  refine ⟨present'.trans present, fun t agree => ?_⟩
  obtain ⟨t', agree', ran⟩ := run t agree
  obtain ⟨t'', agree'', ran'⟩ := run' t' agree'
  refine ⟨t'', agree'', ?_⟩
  rw [StateT.run_bind, ran]
  exact ran'

theorem traceStatement (env : TranslationEnv) (node : NodeId) :
    TracesOnly env.graph.name (traceStatement env node) := by
  intro s
  obtain ⟨context, trace, bound, closed, names⟩ := s
  cases trace with
  | none =>
    refine ⟨rfl, fun t agree => ⟨none, rfl, ?_⟩⟩
    cases t with
    | none => rfl
    | some r => cases agree
  | some r =>
    refine ⟨rfl, fun t agree => ?_⟩
    cases t with
    | none => cases agree
    | some r' =>
      obtain ⟨index, nodes⟩ := TraceRecord.register_congr (Option.some.inj agree) node
      refine ⟨some (r'.register env.graph.name node).2, congrArg some nodes, ?_⟩
      have number : ([.effect (some node) (traceCall env.graph.name
          (r'.register env.graph.name node).1)] : List Stmt) =
          [.effect (some node) (traceCall env.graph.name (r.register env.graph.name node).1)] := by
        rw [index]
      exact congrArg (·, _) number

/-- No step of the translation of a function looks at what is recorded of other graphs. -/
theorem pervades (env : TranslationEnv) :
    Pervades env fun _ m => TracesOnly env.graph.name m where
  pure _ := aside (fun _ => rfl) fun _ _ => rfl
  bind := bind
  reading each s := each s.bound s.closed s
  report _ := modifyContext _
  inBlock {body} only s := by
    obtain ⟨present, run⟩ := only s
    refine ⟨present, fun t agree => ?_⟩
    obtain ⟨t', agree', ran⟩ := run t agree
    refine ⟨t', agree', ?_⟩
    have block : ∀ s : TranslatorState, (inBlock body).run s = ((body.run s).1,
        { (body.run s).2 with
          bound := s.bound
          closed := (body.run s).2.closed ++
            (body.run s).2.bound.keys.filter fun key => !s.bound.contains key }) := fun _ => rfl
    rw [block, block, ran]
  bindOutput _ _ _ := aside (fun _ => rfl) fun _ _ => rfl
  release _ := aside (fun _ => rfl) fun _ _ => rfl
  takeName _ := aside (fun _ => rfl) fun _ _ => rfl
  reset := aside (fun _ => rfl) fun _ _ => rfl
  hook := traceStatement env

theorem translateField (env : TranslationEnv) (v : VariableDecl) :
    TracesOnly graph (translateField env v) := by
  unfold NodeScript.translateField
  split
  · exact modifyContext _
  · exact modifyContext _

/-- Filing a method reads and changes what has been gathered, and nothing else. -/
theorem fileMethod (function : NodeId) (decl : FunctionDecl) (method : MethodDecl) :
    TracesOnly graph (fileMethod function decl method) := by
  let p : FunctionPart := ⟨function, decl, method⟩
  have runs : ∀ s : TranslatorState, ∃ context, ∀ t,
      (NodeScript.fileMethod function decl method).run { s with trace := t } =
        ((), { s with trace := t, context }) := by
    intro s
    cases merged : s.context.mergeMethod method with
    | error e =>
      refine ⟨s.context.report e, fun t => Prod.ext rfl ?_⟩
      exact fileMethod_error (p := p) (s := { s with trace := t }) merged
    | ok c =>
      let filed : TranslationContext :=
        { s.context with
          methods := FunctionPart.fileAmong s.context.methods p
          registrations := FunctionPart.subscribeAmong s.context.registrations p }
      refine ⟨filed, fun t => Prod.ext rfl ?_⟩
      exact fileMethod_ok (p := p) (s := { s with trace := t }) merged
  refine aside (fun s => ?_) fun s t => ?_
  · obtain ⟨context, run⟩ := runs s
    have here := run s.trace
    rw [here]
  · obtain ⟨context, run⟩ := runs s
    have here := run s.trace
    rw [run t, here]

end TracesOnly

/-- An extension that has nothing to do with the record of traced runs: where reading inputs looks at
what is recorded of one graph only, so does the extension. -/
def NodeTranslator.Untraced (t : NodeTranslator) : Prop :=
  ∀ graph, t.Keeps fun _ m => TracesOnly graph m

namespace TranslationEnv

variable {env : TranslationEnv}

theorem translateFunction_tracesOnly
    (untraced : ∀ typeId t, env.translators.get? typeId = some t → t.Untraced) (function : NodeId)
    (decl : FunctionDecl) : TracesOnly env.graph.name (translateFunction env function decl) := by
  have extensions : env.Keeps fun _ m => TracesOnly env.graph.name m :=
    fun _ _ typeId _ t _ _ present => untraced typeId t present env.graph.name
  rw [translateFunction_eq]
  exact ((TracesOnly.pervades env).functionMethod extensions function decl).bind
    (TracesOnly.fileMethod function decl)

theorem translateMembers_tracesOnly
    (untraced : ∀ typeId t, env.translators.get? typeId = some t → t.Untraced) :
    TracesOnly env.graph.name (translateMembers env) := by
  have rules := TracesOnly.pervades env
  have fields : TracesOnly env.graph.name (translateFields env) :=
    rules.forM (TracesOnly.translateField env) _
  refine fields.bind fun _ => TracesOnly.bind ?_ fun _ => TracesOnly.modifyContext _
  apply rules.forM
  rintro ⟨function, decl⟩
  exact translateFunction_tracesOnly untraced function decl

/-- What a record holds has no part in what a graph is translated to. -/
theorem translate_congr
    (untraced : ∀ typeId t, env.translators.get? typeId = some t → t.Untraced)
    {t t' : Option TraceRecord} (present : t.isSome = t'.isSome) :
    (env.translate t).unit = (env.translate t').unit ∧
      (env.translate t).errors = (env.translate t').errors ∧
      (env.translate t).trace.isSome = t.isSome := by
  have only := translateMembers_tracesOnly untraced
  have anew : AgreeOn env.graph.name (env.begun t).trace (env.begun t').trace := by
    cases t <;> cases t'
    · rfl
    · cases present
    · cases present
    · simp [AgreeOn, begun, TraceRecord.nodesOf_beginGraph]
  obtain ⟨still, -⟩ := only (env.begun t)
  obtain ⟨-, run⟩ := only (env.begun t')
  obtain ⟨last, -, same⟩ := run (env.begun t).trace anew
  have context : ((translateMembers env).run (env.begun t)).2.context =
      ((translateMembers env).run (env.begun t')).2.context :=
    congrArg (fun r => r.2.context) same
  have held : (env.begun t).trace.isSome = t.isSome := Option.isSome_map
  rw [translate_eq, translate_eq]
  exact ⟨congrArg env.unitOf context, congrArg TranslationContext.errors context, still.trans held⟩

end TranslationEnv

end NodeScript
