import NodeScript.Proofs.Translation.Trails
import NodeScript.Proofs.Translation.Variables

/-!
What the expressions of emitted statements have in common. What holds of all that is told for inputs
and calls, and of the values that stand in for what cannot be told, holds of every expression that
is emitted, whatever is reported.
-/

namespace NodeScript

/-! ### What is told -/

section Rules

variable {α β : Type} {m : Evaluate α} {P ok : α → Prop} {Q : β → Prop}

/-- What an evaluation tells is as it should be, in every state. -/
def ValueSatisfies (m : Evaluate α) (ok : α → Prop) : Prop :=
  ResultSatisfies m.run fun told => ∀ a, told = .ok a → ok a

namespace ValueSatisfies

theorem pure {a : α} (holds : ok a) : ValueSatisfies (pure a) ok := by
  rintro s a' told
  obtain rfl := Except.ok.inj told
  exact holds

theorem throw {e : CompilerError} : ValueSatisfies (throw e : Evaluate α) ok :=
  fun _ _ told => nomatch told

theorem ofExcept {r : Except CompilerError α} (holds : ∀ a, r = .ok a → ok a) :
    ValueSatisfies (MonadExcept.ofExcept r : Evaluate α) ok := by
  cases r with
  | ok a => exact .pure (holds a rfl)
  | error e => exact .throw

theorem mono (satisfies : ValueSatisfies m P) (weaker : ∀ a, P a → ok a) : ValueSatisfies m ok :=
  fun s a told => weaker a (satisfies s a told)

theorem any : ValueSatisfies m fun _ => True := fun _ _ _ => trivial

theorem bind {f : α → Evaluate β} (first : ValueSatisfies m P)
    (next : ∀ a, P a → ValueSatisfies (f a) Q) :
    ValueSatisfies (m >>= f) Q := by
  unfold ValueSatisfies
  rw [ExceptT.run_bind]
  refine ResultSatisfies.bind first fun told holds => ?_
  cases told with
  | ok a => exact next a (holds a rfl)
  | error e => exact .pure nofun

end ValueSatisfies

end Rules

/-! ### What is said -/

namespace TranslationEnv

/-- Every expression in the statements, at any depth, was emitted for a site that is as it should be.
Which site that is follows from the statement, unless two nodes of the graph share an identity. -/
def ExpressionsSatisfy (env : TranslationEnv) (D : Site → Expr → Prop) (block : List Stmt) : Prop :=
  ∀ stmt site e, StandsIn stmt block → env.ExpressionFor stmt site e →
    ∃ site, env.ExpressionFor stmt site e ∧ D site e

/-- What a relation has to hold of for all expressions to be in it. -/
structure CoversEmitted (env : TranslationEnv) (D : Site → Expr → Prop) : Prop where
  inputs : ∀ node name, ValueSatisfies (env.inputExpr node name) (D (.input node name))
  calls : ∀ n call, n.kind = .call call →
    ValueSatisfies (env.callExpr n call (env.inputExpr n.id)) (D (.call n))
  defaults : ∀ node name type, D (.input node name) (.defaultOf type)
  hooks : ∀ n index, D (.call n) (traceCall env.graph.name index)

variable {env : TranslationEnv} {D : Site → Expr → Prop} {n : Node} {stmt : Stmt} {site site' : Site}
  {e : Expr} {block block' : List Stmt}

/-- Where every node is filed under its own identity, the site of an expression is the only one. -/
theorem ExpressionFor.unique (filed : ∀ {id n}, env.graph.node? id = some n → n.id = id)
    (said : env.ExpressionFor stmt site e) (said' : env.ExpressionFor stmt site' e) :
    site = site' := by
  have same {child child' : NodeId} {n n' : Node} (found : env.graph.node? child = some n)
      (found' : env.graph.node? child' = some n') (id : n.id = n'.id) : n = n' := by
    rw [filed found, filed found'] at id
    exact Option.some.inj (found.symm.trans (id ▸ found'))
  generalize origin : stmt = stmt' at said'
  cases said with
  | effect found | declare found =>
    cases said' <;> simp only [Stmt.effect.injEq, Stmt.declare.injEq, reduceCtorEq] at origin
    rw [same found ‹_› (Option.some.inj origin.1)]
  | _ =>
    cases said' <;>
      simp_all only [Stmt.assign.injEq, Stmt.branch.injEq, Stmt.select.injEq, Stmt.repeated.injEq,
        Stmt.forEach.injEq, Stmt.leave.injEq, Option.some.injEq, reduceCtorEq]

theorem expressionsSatisfy_nil : env.ExpressionsSatisfy D [] := by
  intro stmt site e standing
  cases standing with
  | here member | inside member => exact nomatch member

theorem ExpressionsSatisfy.append (front : env.ExpressionsSatisfy D block)
    (behind : env.ExpressionsSatisfy D block') :
    env.ExpressionsSatisfy D (block ++ block') := by
  intro stmt site e standing said
  cases standing with
  | here member =>
    rcases List.mem_append.mp member with first | last
    · exact front _ _ _ (.here first) said
    · exact behind _ _ _ (.here last) said
  | inside member inner standing =>
    rcases List.mem_append.mp member with first | last
    · exact front _ _ _ (.inside first inner standing) said
    · exact behind _ _ _ (.inside last inner standing) said

theorem expressionsSatisfy_of_forall (each : ∀ stmt ∈ block, env.ExpressionsSatisfy D [stmt]) :
    env.ExpressionsSatisfy D block := by
  induction block with
  | nil => exact expressionsSatisfy_nil
  | cons stmt rest ih =>
    obtain ⟨first, others⟩ := List.forall_mem_cons.mp each
    exact first.append (ih others)

/-- What a statement says is told of the statement itself and of the blocks inside it. -/
theorem ExpressionsSatisfy.single
    (own : ∀ site e, env.ExpressionFor stmt site e →
      ∃ site, env.ExpressionFor stmt site e ∧ D site e)
    (inner : ∀ body ∈ stmt.bodies, env.ExpressionsSatisfy D body) :
    env.ExpressionsSatisfy D [stmt] := by
  intro other site e standing said
  cases standing with
  | here member =>
    obtain rfl := List.mem_singleton.mp member
    exact own _ _ said
  | inside member body standing =>
    obtain rfl := List.mem_singleton.mp member
    exact inner _ body _ _ _ standing said

variable {node : NodeId} {name : String} {value condition target : Expr}
  {body thenBody elseBody fallback : List Stmt} {cases : List SwitchCase}

/-- A statement that says one value, at an input. -/
theorem ExpressionsSatisfy.asking
    (only : ∀ site e, env.ExpressionFor stmt site e → site = .input node name ∧ e = value)
    (told : D (.input node name) value)
    (inner : ∀ body ∈ stmt.bodies, env.ExpressionsSatisfy D body) :
    env.ExpressionsSatisfy D [stmt] := by
  refine .single (fun site e said => ?_) inner
  obtain ⟨rfl, rfl⟩ := only site e said
  exact ⟨_, said, told⟩

/-- A statement without others inside. -/
theorem ExpressionsSatisfy.flat (flat : stmt.bodies = [])
    (own : ∀ site e, env.ExpressionFor stmt site e →
      ∃ site, env.ExpressionFor stmt site e ∧ D site e) :
    env.ExpressionsSatisfy D [stmt] := by
  refine .single own fun body inner => ?_
  rw [flat] at inner
  exact nomatch inner

theorem ExpressionsSatisfy.assign (told : D (.input node "Value") value) :
    env.ExpressionsSatisfy D [.assign (some node) target value] :=
  .asking (fun _ _ said => by cases said; exact ⟨rfl, rfl⟩) told (fun _ inner => nomatch inner)

theorem ExpressionsSatisfy.branch (told : D (.input node "Condition") condition)
    (first : env.ExpressionsSatisfy D thenBody) (last : env.ExpressionsSatisfy D elseBody) :
    env.ExpressionsSatisfy D [.branch (some node) condition thenBody elseBody] := by
  refine .asking (fun _ _ said => by cases said; exact ⟨rfl, rfl⟩) told ?_
  simp only [Stmt.bodies, List.forall_mem_cons]
  exact ⟨first, last, List.forall_mem_nil _⟩

theorem ExpressionsSatisfy.select (told : D (.input node "Value") value)
    (inner : ∀ c ∈ cases, env.ExpressionsSatisfy D c.body)
    (last : env.ExpressionsSatisfy D fallback) :
    env.ExpressionsSatisfy D [.select (some node) value cases fallback] := by
  refine .asking (fun _ _ said => by cases said; exact ⟨rfl, rfl⟩) told ?_
  simp only [Stmt.bodies, List.forall_mem_append, List.forall_mem_map, List.forall_mem_singleton]
  exact ⟨inner, last⟩

theorem ExpressionsSatisfy.repeated (told : D (.input node "Condition") condition)
    (inner : env.ExpressionsSatisfy D body) :
    env.ExpressionsSatisfy D [.repeated (some node) condition body] :=
  .asking (fun _ _ said => by cases said; exact ⟨rfl, rfl⟩) told
    (List.forall_mem_singleton.mpr inner)

theorem ExpressionsSatisfy.forEach (told : D (.input node "Collection") value)
    (inner : env.ExpressionsSatisfy D body) :
    env.ExpressionsSatisfy D [.forEach (some node) name value body] :=
  .asking (fun _ _ said => by cases said; exact ⟨rfl, rfl⟩) told
    (List.forall_mem_singleton.mpr inner)

theorem ExpressionsSatisfy.leave (told : D (.input node "Value") value) :
    env.ExpressionsSatisfy D [.leave (some node) (some value)] :=
  .asking (fun _ _ said => by cases said; exact ⟨rfl, rfl⟩) told (fun _ inner => nomatch inner)

end TranslationEnv

/-! ### The parts of the translation -/

section Parts

open TranslationEnv (ExpressionsSatisfy CoversEmitted ExpressionFor)

variable {env : TranslationEnv} {D : Site → Expr → Prop} {chain : BranchTranslator} {n : Node}
  {node child : NodeId}

/-- The statements of the stacks from one on say what they should. -/
def ChainExpressionsSatisfy (env : TranslationEnv) (D : Site → Expr → Prop)
    (chain : BranchTranslator) : Prop :=
  ∀ start stop, ResultSatisfies (chain start stop) (env.ExpressionsSatisfy D)

section

variable (covers : env.CoversEmitted D)

include covers

theorem inputOrDefault_expressionsSatisfy (node : NodeId) (name type : String) :
    ResultSatisfies (env.inputOrDefault node name type) (D (.input node name)) := by
  unfold TranslationEnv.inputOrDefault
  refine ResultSatisfies.bind (covers.inputs node name) fun told holds => ?_
  cases told with
  | ok e => exact .pure (holds e rfl)
  | error e => exact ResultSatisfies.any.bind fun _ _ => .pure (covers.defaults node name type)

theorem traceStatement_expressionsSatisfy (child : NodeId) :
    ResultSatisfies (traceStatement env child) (env.ExpressionsSatisfy D) := by
  have hook (index : Nat) :
      env.ExpressionsSatisfy D [.effect (some child) (traceCall env.graph.name index)] := by
    refine .flat rfl fun site e said => ?_
    generalize origin : some child = node at said
    cases said with
    | effect found kind => exact ⟨_, .effect found kind, covers.hooks _ index⟩
  intro s
  obtain ⟨context, trace, bound, closed, names⟩ := s
  cases trace with
  | none => exact TranslationEnv.expressionsSatisfy_nil
  | some record => exact hook _

theorem translateLeave_expressionsSatisfy (n : Node) :
    ResultSatisfies (translateLeave env n) fun stmt => env.ExpressionsSatisfy D [stmt] := by
  unfold translateLeave
  split
  · exact (inputOrDefault_expressionsSatisfy covers _ _ _).bind fun value told =>
      .pure (.leave told)
  · refine .pure (.flat rfl fun site e said => ?_)
    generalize n.id = node at said
    exact nomatch said

theorem translateAssignment_expressionsSatisfy (n : Node) (id : VariableId) :
    ResultSatisfies (translateAssignment env n id) (env.ExpressionsSatisfy D) := by
  unfold translateAssignment
  split
  · exact ResultSatisfies.any.bind fun _ _ => .pure TranslationEnv.expressionsSatisfy_nil
  · exact (inputOrDefault_expressionsSatisfy covers _ _ _).bind fun value told =>
      .pure (.assign told)

theorem translateCall_expressionsSatisfy (found : env.graph.node? child = some n) {call : CallDecl}
    (kind : n.kind = .call call) :
    ResultSatisfies (translateCall env n call) (env.ExpressionsSatisfy D) := by
  unfold translateCall
  refine ResultSatisfies.bind (covers.calls n call kind) fun told holds => ?_
  cases told with
  | error e => exact ResultSatisfies.any.bind fun _ _ => .pure TranslationEnv.expressionsSatisfy_nil
  | ok value =>
    have told := holds value rfl
    dsimp only
    split
    · refine ResultSatisfies.any.bind fun name _ => .pure (.flat rfl fun site e said => ?_)
      have here : env.ExpressionFor (.declare (some n.id) none name (some value)) (.call n) value :=
        .declare found kind
      generalize n.id = node at said here
      cases said
      exact ⟨_, here, told⟩
    · refine .pure (.flat rfl fun site e said => ?_)
      have here : env.ExpressionFor (.effect (some n.id) value) (.call n) value :=
        .effect found kind
      generalize n.id = node at said here
      cases said
      exact ⟨_, here, told⟩

variable (chains : ChainExpressionsSatisfy env D chain)

include chains

omit covers in
theorem translateBranch_expressionsSatisfy (target join : Option NodeId) :
    ResultSatisfies (translateBranch chain target join) (env.ExpressionsSatisfy D) := by
  cases target with
  | none => exact .pure TranslationEnv.expressionsSatisfy_nil
  | some start => exact fun s => chains start join s

theorem translateIf_expressionsSatisfy (n : Node) :
    ResultSatisfies (translateIf env chain n) fun made => env.ExpressionsSatisfy D [made.1] := by
  unfold translateIf
  refine (inputOrDefault_expressionsSatisfy covers _ _ _).bind fun condition told => ?_
  refine (translateBranch_expressionsSatisfy chains _ _).bind fun thenBody first => ?_
  exact (translateBranch_expressionsSatisfy chains _ _).bind fun elseBody last =>
    .pure (.branch told first last)

omit covers in
theorem translateCases_expressionsSatisfy (n : Node) (join : Option NodeId) (cases : List Int64) :
    ResultSatisfies (translateCases env chain n join cases) fun made =>
      ∀ c ∈ made, env.ExpressionsSatisfy D c.body := by
  induction cases with
  | nil => exact .pure nofun
  | cons label rest ih =>
    refine (translateBranch_expressionsSatisfy chains _ _).bind fun body first => ?_
    exact ih.bind fun others later => .pure (List.forall_mem_cons.mpr ⟨first, later⟩)

theorem translateSwitch_expressionsSatisfy (n : Node) (cases : List Int64) :
    ResultSatisfies (translateSwitch env chain n cases) fun made =>
      env.ExpressionsSatisfy D [made.1] := by
  unfold translateSwitch
  refine (inputOrDefault_expressionsSatisfy covers _ _ _).bind fun value told => ?_
  refine (translateCases_expressionsSatisfy chains n _ cases).bind fun made inner => ?_
  exact (translateBranch_expressionsSatisfy chains _ _).bind fun fallback last =>
    .pure (.select told inner last)

theorem translateNode_expressionsSatisfy (found : env.graph.node? child = some n)
    (builtIn : n.kind.isBuiltIn = true) :
    ResultSatisfies (translateNode env chain n) (env.ExpressionsSatisfy D) := by
  unfold translateNode
  split
  · exact translateAssignment_expressionsSatisfy covers n _
  · rename_i kind
    exact translateCall_expressionsSatisfy covers found kind
  · unfold translateWhile
    refine (inputOrDefault_expressionsSatisfy covers _ _ _).bind fun condition told => ?_
    exact (translateBranch_expressionsSatisfy chains _ _).bind fun body inner =>
      .pure (.repeated told inner)
  · unfold translateForEach
    refine (inputOrDefault_expressionsSatisfy covers _ _ _).bind fun collection told => ?_
    refine ResultSatisfies.any.bind fun item _ =>
      (translateBranch_expressionsSatisfy chains _ _).bind fun body inner => ?_
    exact ResultSatisfies.any.bind fun _ _ => .pure (.forEach told inner)
  · rename_i custom
    rw [custom] at builtIn
    exact absurd builtIn Bool.false_ne_true
  · exact ResultSatisfies.any.bind fun _ _ => .pure TranslationEnv.expressionsSatisfy_nil

theorem translateChildren_expressionsSatisfy (builtIn : env.graph.BuiltIn) (stack : NodeId)
    (rest : List NodeId) :
    ResultSatisfies (translateChildren env chain stack rest) fun made =>
      env.ExpressionsSatisfy D made.1 := by
  induction rest with
  | nil => exact .pure TranslationEnv.expressionsSatisfy_nil
  | cons child rest ih =>
    unfold translateChildren
    split
    · exact ih
    · rename_i n found
      refine (traceStatement_expressionsSatisfy covers child).bind fun hook before => ?_
      split
      · exact (translateIf_expressionsSatisfy covers chains n).bind fun _ own =>
          .pure (before.append own)
      · exact (translateSwitch_expressionsSatisfy covers chains n _).bind fun _ own =>
          .pure (before.append own)
      · exact (translateLeave_expressionsSatisfy covers n).bind fun _ own =>
          .pure (before.append own)
      · refine (translateNode_expressionsSatisfy covers chains found (builtIn found)).bind
          fun _ own => ?_
        exact ih.bind fun _ later => .pure ((before.append own).append later)

theorem translateStack_expressionsSatisfy (builtIn : env.graph.BuiltIn) (stack : NodeId) :
    ResultSatisfies (translateStack env chain stack) fun made =>
      env.ExpressionsSatisfy D made.1 := by
  unfold translateStack
  split
  · exact .pure TranslationEnv.expressionsSatisfy_nil
  · split
    · exact translateChildren_expressionsSatisfy covers chains builtIn stack _
    · exact ResultSatisfies.any.bind fun _ _ => .pure TranslationEnv.expressionsSatisfy_nil

end

end Parts

namespace TranslationEnv

variable {env : TranslationEnv} {D : Site → Expr → Prop}

theorem chainWithin_expressionsSatisfy (covers : env.CoversEmitted D) (builtIn : env.graph.BuiltIn)
    (depth : Nat)
    (path : List NodeId) : ChainExpressionsSatisfy env D (env.chainWithin depth path) := by
  intro start stop
  induction depth generalizing path start stop with
  | zero =>
    unfold chainWithin
    split
    · exact .pure expressionsSatisfy_nil
    split
    · exact ResultSatisfies.any.bind fun _ _ => .pure expressionsSatisfy_nil
    · exact .pure expressionsSatisfy_nil
  | succ depth ih =>
    unfold chainWithin
    split
    · exact .pure expressionsSatisfy_nil
    split
    · exact ResultSatisfies.any.bind fun _ _ => .pure expressionsSatisfy_nil
    refine (translateStack_expressionsSatisfy covers (ih (start :: path)) builtIn start).bind
      fun made first => ?_
    obtain ⟨stmts, next⟩ := made
    cases next with
    | none => exact .pure first
    | some next =>
      exact (ih (start :: path) next stop).bind fun _ later => .pure (first.append later)

theorem completeMethod_expressionsSatisfy (covers : env.CoversEmitted D)
    (builtIn : env.graph.BuiltIn)
    (function : NodeId) (decl : FunctionDecl) (parameters : List ParameterDecl)
    {locals : List Stmt} (before : env.ExpressionsSatisfy D locals) :
    ResultSatisfies (completeMethod env function decl parameters locals) fun method =>
      env.ExpressionsSatisfy D method.body := by
  unfold completeMethod
  refine ResultSatisfies.bind (chainWithin_expressionsSatisfy covers builtIn _ _ function none)
    fun stmts own => ?_
  exact ResultSatisfies.any.bind fun _ _ => .pure (before.append own)

/-- Declarations of variables say nothing, and so the statements of a function say what they
should. -/
theorem functionMethod_expressionsSatisfy (covers : env.CoversEmitted D)
    (builtIn : env.graph.BuiltIn)
    (function : NodeId) (decl : FunctionDecl) :
    ResultSatisfies (functionMethod env function decl) fun method =>
      env.ExpressionsSatisfy D method.body := by
  intro s
  have introduced := translateVariables_introduces env function env.graph.vars.values
    { s with bound := ∅, closed := [], names := [] }
  rw [functionMethod_run]
  generalize (translateVariables env function env.graph.vars.values).run
    { s with bound := ∅, closed := [], names := [] } = r at introduced
  refine completeMethod_expressionsSatisfy covers builtIn function decl r.1.1 ?_ r.2
  refine expressionsSatisfy_of_forall fun stmt inside => ?_
  obtain ⟨type, name, value, rfl, -⟩ := introduced.locals stmt inside
  exact .flat rfl fun _ _ said => nomatch said

end TranslationEnv

end NodeScript
