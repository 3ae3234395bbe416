import NodeScript.Proofs.Translation.Functions

/-!
Properties of all parts of the translation. A property that the single steps have, and that parts one
after the other keep, is a property of the translation of values, stacks and functions, as long as
extensions keep it too.
-/

namespace NodeScript

/-- A property that the single steps of the translation of a function have, and that parts of it keep
when they are put one after the other. What is read of the state is which outputs have locals. -/
structure Pervades (env : TranslationEnv) (P : (α : Type) → Translate α → Prop) : Prop where
  pure : ∀ {α : Type} (a : α), P α (pure a)
  bind : ∀ {α β : Type} {m : Translate α} {f : α → Translate β}, P α m → (∀ a, P β (f a)) →
    P β (m >>= f)
  reading : ∀ {α : Type} {f : OrderedMap OutputRef String → List OutputRef → Translate α},
    (∀ bound closed, P α (f bound closed)) → P α (get >>= fun s => f s.bound s.closed)
  report : ∀ e, P Unit (reportError e)
  inBlock : ∀ {body}, P (List Stmt) body → P (List Stmt) (inBlock body)
  bindOutput : ∀ node output base, P String (bindOutput node output base)
  release : ∀ key, P Unit (modify fun s => { s with bound := s.bound.erase key })
  takeName : ∀ name, P Unit (modify fun s => { s with names := name :: s.names })
  reset : P Unit (modify fun s => { s with bound := ∅, closed := [], names := [] })
  hook : ∀ node, P (List Stmt) (traceStatement env node)

/-- An extension that keeps a property of what reads inputs. -/
structure NodeTranslator.Keeps (P : (α : Type) → Translate α → Prop) (t : NodeTranslator) : Prop where
  statements : ∀ scope, (∀ input, P _ (scope.input input).run) → P _ (t.statements scope).run
  expression : ∀ scope output, (∀ input, P _ (scope.input input).run) →
    P _ (t.expression scope output).run

/-- The extensions whose nodes stand in the graph keep a property. -/
def TranslationEnv.Keeps (env : TranslationEnv) (P : (α : Type) → Translate α → Prop) : Prop :=
  ∀ id n typeId config t, env.graph.node? id = some n → n.kind = .custom typeId config →
    env.translators.get? typeId = some t → t.Keeps P

/-- A graph without nodes of extensions asks nothing of them. -/
theorem Graph.BuiltIn.keeps {env : TranslationEnv} (builtIn : env.graph.BuiltIn)
    (P : (α : Type) → Translate α → Prop) : env.Keeps P := by
  intro id n typeId config t found kind
  have own := builtIn found
  simp [kind, NodeKind.isBuiltIn] at own

/-- The expression of a connected input, where it is known which outputs have locals. -/
def TranslationEnv.sourceExpr (env : TranslationEnv) (under : List NodeId)
    (build : NodeId → Node → String → Evaluate Expr) (source : Node) (output : String)
    (bound : OrderedMap OutputRef String) (closed : List OutputRef) : Evaluate Expr :=
  match bound.get? ⟨source.id, output⟩ with
  | some name => return .ident name
  | none =>
    match env.graph.node? source.id with
    | none => throw (nodeError source.id "Node no longer exists")
    | some origin =>
      if closed.contains ⟨source.id, output⟩ then
        throw (nodeError source.id s!"Value of `{origin.title}` is produced in another branch")
      else if under.contains source.id then throw (cyclicValue source.id)
      else build source.id origin output

namespace Pervades

variable {env : TranslationEnv} {P : (α : Type) → Translate α → Prop} (rules : Pervades env P)
  {α β : Type}

/-- What becomes of the context, where this may stay as it is, be changed step by step, and be told
of errors. -/
theorem of_context {R : TranslationContext → TranslationContext → Prop} (refl : ∀ c, R c c)
    (trans : ∀ {c c' c''}, R c c' → R c' c'' → R c c'') (report : ∀ c e, R c (c.report e)) :
    Pervades env fun _ m => ∀ s : TranslatorState, R s.context (m.run s).2.context where
  pure _ _ := refl _
  bind first next s := trans (first s) (next _ _)
  reading each s := each s.bound s.closed s
  report e _ := report _ e
  inBlock body s := body s
  bindOutput _ _ _ _ := refl _
  release _ _ := refl _
  takeName _ _ := refl _
  reset _ := refl _
  hook node s := by
    obtain ⟨context, trace, bound, closed, names⟩ := s
    cases trace <;> exact refl _

include rules

theorem forM {f : α → Translate Unit} (each : ∀ x, P Unit (f x)) (items : List α) :
    P Unit (items.forM f) := by
  induction items with
  | nil => exact rules.pure _
  | cons x rest ih => exact rules.bind (each x) fun _ => ih

theorem throw (e : CompilerError) : P _ (throw e : Evaluate α).run := rules.pure _

theorem evalPure (a : α) : P _ (Pure.pure a : Evaluate α).run := rules.pure _

theorem ofExcept (r : Except CompilerError α) : P _ (MonadExcept.ofExcept r : Evaluate α).run := by
  cases r with
  | ok a => exact rules.pure _
  | error e => exact rules.pure _

theorem evalBind {m : Evaluate α} {f : α → Evaluate β} (first : P _ m.run)
    (next : ∀ a, P _ (f a).run) : P _ (m >>= f).run := by
  rw [ExceptT.run_bind]
  refine rules.bind first fun r => ?_
  cases r with
  | ok a => exact next a
  | error e => exact rules.pure _

/-! ### Values -/

section Values

variable {input : String → Evaluate Expr} {n : Node} {id : NodeId}

theorem readInputs (reads : ∀ name, P _ (input name).run) (names : List String) :
    P _ (readInputs input names).run := by
  induction names with
  | nil => exact rules.evalPure _
  | cons name rest ih =>
    exact rules.evalBind (reads name) fun _ => rules.evalBind ih fun _ => rules.evalPure _

theorem callExpr (n : Node) (call : CallDecl)
    (reads : ∀ name, P _ (input name).run) : P _ (env.callExpr n call input).run := by
  have args (target : Expr) (name : String) (types parameters : List String) :
      P _ (NodeScript.readInputs input parameters >>= fun args =>
        (Pure.pure (.callOn target name types args) : Evaluate Expr)).run :=
    rules.evalBind (rules.readInputs reads _) fun _ => rules.evalPure _
  unfold TranslationEnv.callExpr
  split
  · exact rules.throw _
  · refine rules.evalBind (rules.ofExcept _) fun types => ?_
    dsimp only
    split
    · exact rules.evalBind (rules.evalPure _) fun target => args _ _ _ _
    · exact rules.evalBind (reads "Instance") fun target => args _ _ _ _

theorem valueOf (extensions : env.Keeps P) (reads : ∀ name, P _ (input name).run)
    (found : env.graph.node? id = some n) (output : String) :
    P _ (env.valueOf n output input).run := by
  unfold TranslationEnv.valueOf
  split
  · exact rules.evalPure _
  · split
    · exact rules.evalPure _
    · exact rules.throw _
  · exact rules.evalPure _
  · refine rules.evalBind (reads _) fun _ => rules.evalBind (reads _) fun _ => ?_
    split
    · exact rules.throw _
    · exact rules.evalPure _
  · refine rules.evalBind (reads _) fun _ => ?_
    split
    · exact rules.throw _
    · exact rules.evalPure _
  · split
    · exact rules.throw _
    · exact rules.callExpr _ _ reads
  · exact rules.throw _
  · rename_i kind
    split
    · rename_i present
      exact (extensions _ _ _ _ _ found kind present).expression _ _ reads
    · exact rules.throw _
  · exact rules.throw _

theorem inputFrom {under : List NodeId} {build : NodeId → Node → String → Evaluate Expr}
    (builds : ∀ {source origin}, env.graph.node? source = some origin →
      ∀ output, P _ (build source origin output).run) (node : NodeId) (name : String) :
    P _ (env.inputFrom under build node name).run := by
  unfold TranslationEnv.inputFrom
  split
  · exact rules.throw _
  split
  · exact rules.throw _
  split
  · exact rules.ofExcept _
  rename_i source port _
  have held : ∀ bound closed, P _ (env.sourceExpr under build source port.name bound closed).run := by
    intro bound closed
    unfold TranslationEnv.sourceExpr
    split
    · exact rules.evalPure _
    split
    · exact rules.throw _
    rename_i found
    split
    · exact rules.throw _
    split
    · exact rules.throw _
    · exact builds found _
  exact rules.reading held

theorem inputWithin (extensions : env.Keeps P) (depth : Nat) (under : List NodeId) (node : NodeId)
    (name : String) : P _ (env.inputWithin depth under node name).run := by
  induction depth generalizing under node name with
  | zero => exact rules.inputFrom (fun _ _ => rules.throw _) node name
  | succ depth ih =>
    refine rules.inputFrom (fun found output => ?_) node name
    exact rules.valueOf extensions (fun name => ih _ _ name) found output

theorem inputExpr (extensions : env.Keeps P) (node : NodeId) (name : String) :
    P _ (env.inputExpr node name).run :=
  rules.inputWithin extensions _ _ node name

theorem inputOrDefault (extensions : env.Keeps P) (node : NodeId) (name type : String) :
    P _ (env.inputOrDefault node name type) := by
  refine rules.bind (rules.inputExpr extensions node name) fun result => ?_
  cases result with
  | ok e => exact rules.pure _
  | error e => exact rules.bind (rules.report e) fun _ => rules.pure _

end Values

/-! ### Stacks -/

section Stacks

variable {chain : BranchTranslator} {n : Node} {id : NodeId}
  (extensions : env.Keeps P) (chains : ∀ start stop, P _ (chain start stop))

include chains in
theorem translateBranch (target join : Option NodeId) : P _ (translateBranch chain target join) := by
  cases target with
  | none => exact rules.pure _
  | some start => exact rules.inBlock (chains start join)

include chains in
theorem translateCases (join : Option NodeId) (labels : List Int64) :
    P _ (translateCases env chain n join labels) := by
  induction labels with
  | nil => exact rules.pure _
  | cons label rest ih =>
    refine rules.bind (rules.translateBranch chains _ _) fun body => ?_
    exact rules.bind ih fun others => rules.pure _

include extensions

include chains in
theorem translateIf : P _ (translateIf env chain n) := by
  refine rules.bind (rules.inputOrDefault extensions _ _ _) fun condition => ?_
  refine rules.bind (rules.translateBranch chains _ _) fun thenBody => ?_
  exact rules.bind (rules.translateBranch chains _ _) fun elseBody => rules.pure _

include chains in
theorem translateSwitch (cases : List Int64) : P _ (translateSwitch env chain n cases) := by
  refine rules.bind (rules.inputOrDefault extensions _ _ _) fun value => ?_
  refine rules.bind (rules.translateCases chains _ cases) fun bodies => ?_
  exact rules.bind (rules.translateBranch chains _ _) fun fallback => rules.pure _

theorem translateLeave : P _ (translateLeave env n) := by
  unfold NodeScript.translateLeave
  split
  · exact rules.bind (rules.inputOrDefault extensions _ _ _) fun value => rules.pure _
  · exact rules.pure _

theorem translateAssignment (id : VariableId) : P _ (translateAssignment env n id) := by
  unfold NodeScript.translateAssignment
  split
  · exact rules.bind (rules.report _) fun _ => rules.pure _
  · exact rules.bind (rules.inputOrDefault extensions _ _ _) fun value => rules.pure _

theorem translateCall (call : CallDecl) : P _ (translateCall env n call) := by
  refine rules.bind (rules.callExpr n call (rules.inputExpr extensions n.id)) fun result => ?_
  split
  · exact rules.bind (rules.report _) fun _ => rules.pure _
  · split
    · exact rules.bind (rules.bindOutput _ _ _) fun name => rules.pure _
    · exact rules.pure _

include chains in
theorem translateWhile : P _ (translateWhile env chain n) := by
  refine rules.bind (rules.inputOrDefault extensions _ _ _) fun condition => ?_
  exact rules.bind (rules.translateBranch chains _ _) fun body => rules.pure _

include chains in
theorem translateForEach : P _ (translateForEach env chain n) := by
  refine rules.bind (rules.inputOrDefault extensions _ _ _) fun collection => ?_
  refine rules.bind (rules.bindOutput _ _ _) fun item => ?_
  refine rules.bind (rules.translateBranch chains _ _) fun body => ?_
  exact rules.bind (rules.release _) fun _ => rules.pure _

theorem translateCustom (found : env.graph.node? id = some n) {typeId : String}
    {config : OrderedMap String String} (kind : n.kind = .custom typeId config) :
    P _ (translateCustom env n typeId) := by
  unfold NodeScript.translateCustom
  split
  · exact rules.bind (rules.report _) fun _ => rules.pure _
  · rename_i present
    have reads := rules.inputExpr extensions n.id
    refine rules.bind ((extensions _ _ _ _ _ found kind present).statements _ reads) fun result => ?_
    split
    · exact rules.pure _
    · exact rules.bind (rules.report _) fun _ => rules.pure _

include chains

theorem translateNode (found : env.graph.node? id = some n) : P _ (translateNode env chain n) := by
  unfold NodeScript.translateNode
  split
  · exact rules.translateAssignment extensions _
  · exact rules.translateCall extensions _
  · exact rules.translateWhile extensions chains
  · exact rules.translateForEach extensions chains
  · rename_i kind
    exact rules.translateCustom extensions found kind
  · exact rules.bind (rules.report _) fun _ => rules.pure _

theorem translateChildren (stack : NodeId) (children : List NodeId) :
    P _ (translateChildren env chain stack children) := by
  induction children with
  | nil => exact rules.pure _
  | cons child rest ih =>
    unfold NodeScript.translateChildren
    split
    · exact ih
    rename_i found
    refine rules.bind (rules.hook child) fun hook => ?_
    split
    · exact rules.bind (rules.translateIf extensions chains) fun _ => rules.pure _
    · exact rules.bind (rules.translateSwitch extensions chains _) fun _ => rules.pure _
    · exact rules.bind (rules.translateLeave extensions) fun _ => rules.pure _
    · refine rules.bind (rules.translateNode extensions chains found) fun statements => ?_
      exact rules.bind ih fun _ => rules.pure _

theorem translateStack (stack : NodeId) : P _ (translateStack env chain stack) := by
  unfold NodeScript.translateStack
  split
  · exact rules.pure _
  split
  · exact rules.translateChildren extensions chains stack _
  · exact rules.bind (rules.report _) fun _ => rules.pure _

end Stacks

theorem chainWithin (extensions : env.Keeps P) (depth : Nat)
    (path : List NodeId) (start : NodeId) (stop : Option NodeId) :
    P _ (env.chainWithin depth path start stop) := by
  induction depth generalizing path start stop with
  | zero =>
    unfold TranslationEnv.chainWithin
    split
    · exact rules.pure _
    split
    · exact rules.bind (rules.report _) fun _ => rules.pure _
    · exact rules.pure _
  | succ depth ih =>
    unfold TranslationEnv.chainWithin
    split
    · exact rules.pure _
    split
    · exact rules.bind (rules.report _) fun _ => rules.pure _
    · have chains := ih (start :: path)
      refine rules.bind (rules.translateStack extensions chains start) fun (statements, next) => ?_
      cases next with
      | none => exact rules.pure _
      | some next => exact rules.bind (chains next stop) fun _ => rules.pure _

/-! ### Functions -/

theorem translateVariables (function : NodeId) (vars : List VariableDecl) :
    P _ (translateVariables env function vars) := by
  induction vars with
  | nil => exact rules.pure _
  | cons v rest ih =>
    unfold NodeScript.translateVariables
    split
    · split
      · exact rules.bind (rules.report _) fun _ => ih
      · refine rules.bind (rules.takeName _) fun _ => ?_
        refine rules.bind ih fun (parameters, locals) => ?_
        cases v.scope <;> exact rules.pure _
    · exact ih

theorem translateReturnType (function : NodeId) (decl : FunctionDecl) :
    P _ (translateReturnType env function decl) := by
  unfold NodeScript.translateReturnType
  split
  · exact rules.pure _
  split
  · exact rules.pure _
  · exact rules.bind (rules.report _) fun _ => rules.pure _

/-- A property that pervades the translation is one of making the method of a function. -/
theorem functionMethod (extensions : env.Keeps P) (function : NodeId)
    (decl : FunctionDecl) : P _ (functionMethod env function decl) := by
  refine rules.bind rules.reset fun _ => ?_
  refine rules.bind (rules.translateVariables function _) fun (parameters, locals) => ?_
  refine rules.bind (rules.chainWithin extensions _ _ function none) fun statements => ?_
  exact rules.bind (rules.translateReturnType function decl) fun returnType => rules.pure _

end Pervades

end NodeScript
