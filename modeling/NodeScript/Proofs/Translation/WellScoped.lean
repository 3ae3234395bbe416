import NodeScript.Proofs.Translation.Functions
import NodeScript.Proofs.Translation.Scoping
import NodeScript.Typing.TypeDatabase

/-!
The locals of a function: they are declared before they are read, and their names are those of
nothing else in the function.
-/

namespace NodeScript

open NodeScript.Graph (placed wired numbered)
open TranslatorState (Grown)

variable {env : TranslationEnv} {function : NodeId} {decl : FunctionDecl} {s : TranslatorState}

theorem translateReturnType_declares (env : TranslationEnv) (function : NodeId)
    (decl : FunctionDecl) :
    Declares (translateReturnType env function decl) fun scope _ made after =>
      made = [] ∧ after = scope := by
  unfold translateReturnType
  split
  · exact .pure fun _ => ⟨rfl, rfl⟩
  split
  · exact .pure fun _ => ⟨rfl, rfl⟩
  · exact .reported _ _

/-- What becomes of a state while the variables of a function are declared: errors are added at
most, and the names of parameters and locals are taken. -/
structure Introduces (function : NodeId) (s : TranslatorState)
    (r : (List ParameterDecl × List Stmt) × TranslatorState) : Prop where
  errors : s.context.errors <+: r.2.context.errors
  fields : r.2.context.fields = s.context.fields
  bound : r.2.bound = s.bound
  names : s.names ⊆ r.2.names
  parameters : ∀ p ∈ r.1.1, p.name ∈ r.2.names
  locals : ∀ stmt ∈ r.1.2, ∃ type name value,
    stmt = .declare (some function) (some type) name (some value) ∧ name ∈ r.2.names

theorem translateVariables_introduces (env : TranslationEnv) (function : NodeId)
    (vars : List VariableDecl) (s : TranslatorState) :
    Introduces function s ((translateVariables env function vars).run s) := by
  induction vars generalizing s with
  | nil => exact ⟨List.prefix_rfl, rfl, rfl, List.Subset.refl _, nofun, nofun⟩
  | cons v rest ih =>
    unfold translateVariables
    split
    · split
      · obtain ⟨errors, fields, bound, names, parameters, locals⟩ :=
          ih { s with context := s.context.report (nodeError function v.unknownType) }
        exact ⟨(List.prefix_append _ _).trans errors, fields, bound, names, parameters, locals⟩
      · rename_i t _
        obtain ⟨errors, fields, bound, names, parameters, locals⟩ :=
          ih { s with names := sanitize v.name :: s.names }
        have here : sanitize v.name ∈ ((translateVariables env function rest).run
            { s with names := sanitize v.name :: s.names }).2.names := names (.head _)
        have earlier := List.Subset.trans (List.subset_cons_self _ _) names
        cases scope : v.scope with
        | parameter =>
          exact ⟨errors, fields, bound, earlier, List.forall_mem_cons.mpr ⟨here, parameters⟩, locals⟩
        | field | «local» =>
          refine ⟨errors, fields, bound, earlier, parameters, List.forall_mem_cons.mpr ⟨?_, locals⟩⟩
          exact ⟨_, _, _, rfl, here⟩
    · exact ih s

theorem completeMethod_declares (builtIn : env.graph.BuiltIn) (parameters : List ParameterDecl)
    (locals : List Stmt) :
    Declares (completeMethod env function decl parameters locals) fun scope method made _ =>
      method.name = sanitize decl.methodName ∧ method.parameters = parameters ∧
        ∃ statements after, method.body = locals ++ statements ∧
          ScopedBlock env scope statements made after := by
  unfold completeMethod
  refine (env.chainWithin_declares builtIn _ _ function none).bind fun statements => ?_
  refine (translateReturnType_declares env function decl).bind fun returnType => .pure ?_
  rintro _ _ _ ⟨rfl, rfl⟩ scope made block
  rw [List.append_nil, List.append_nil]
  exact ⟨rfl, rfl, statements, _, rfl, block⟩

/-- The value at an output is held by a local: it is what a call in a stack returns, or the item of
a loop. -/
def TranslationEnv.HeldLocally (env : TranslationEnv) (ref : OutputRef) : Prop :=
  ∃ n, env.graph.node? ref.node = some n ∧
    ((∃ call, n.kind = .call call) ∧ n.isStacked = true ∨ n.kind = .forEach)

/-- In an expression, what was emitted for the output of a call in a stack or of a loop is the name
of a local that holds the value of that output and may be read; and the call that a node in a stack
makes is the whole expression if it stands in it. -/
structure TranslationEnv.ReadsLocals (env : TranslationEnv) (visible : Scope) (site : Site)
    (e : Expr) : Prop where
  outputs : ∀ ref y, env.Occurs (.output ref) y site e → env.HeldLocally ref →
    ∃ name, (ref, name) ∈ visible ∧ y = .ident name
  calls : ∀ n y, env.Occurs (.call n) y site e → n.isStacked = true → site = .call n

theorem TranslationEnv.Denotes.readsLocals {scope : Scope} {site : Site} {e : Expr}
    (denotes : env.Denotes scope site e) : env.ReadsLocals scope site e where
  outputs := by
    rintro ref y occurs ⟨n, found, kept⟩
    exact (denotes.of_occurs occurs).exists_local found kept
  calls n y occurs stacked := denotes.eq_call occurs stacked

/-- The statements of a function, with its variables declared before them: every expression in them,
apart from the reports that a node runs, reads locals where they are declared, and the names of the
locals are those of nothing else in the function. -/
structure WellScoped (env : TranslationEnv) (function : NodeId) (parameters : List ParameterDecl)
    (fields : List FieldDecl) (locals statements : List Stmt) : Prop where
  block : ∃ after, Scoped env [] statements after
  reads : ∀ stmt visible e, StandsWhere [] statements stmt visible → stmt.said? = some e →
    (∃ index, e = traceCall env.graph.name index) ∨
      ∃ site, env.ExpressionFor stmt site e ∧ env.ReadsLocals visible site e
  distinct : (Stmt.localNamesAll statements).Nodup
  notParameter : ∀ p ∈ parameters, p.name ∉ Stmt.localNamesAll statements
  notVariable : ∀ stmt ∈ locals, ∃ type name value,
    stmt = .declare (some function) (some type) name (some value) ∧
      name ∉ Stmt.localNamesAll statements
  notField : ∀ f ∈ fields, f.name ∉ Stmt.localNamesAll statements

/-- Locals that are made when the variables have been declared are named like none of these. -/
theorem Introduces.wellScoped {parameters : List ParameterDecl} {locals statements : List Stmt}
    {s' s'' : TranslatorState} {after : Scope}
    (introduces : Introduces function s ((parameters, locals), s'))
    (grown : Grown s' s'' (Stmt.localNamesAll statements))
    (block : Scoped env [] statements after) :
    WellScoped env function parameters s.context.fields locals statements := by
  have free : ∀ name ∈ Stmt.localNamesAll statements,
      name ∉ s'.names ∧ name ∉ s.context.fields.map (·.name) := by
    intro name member
    have free := grown.free name member
    rw [← Bool.not_eq_true, TranslatorState.isTaken_iff, not_or] at free
    exact ⟨free.1, introduces.fields ▸ free.2⟩
  refine ⟨⟨after, block⟩, ?_, grown.nodup, ?_, ?_, ?_⟩
  · intro stmt visible e stands said
    exact (block.denoted stands said).imp_right fun ⟨site, said, denotes⟩ =>
      ⟨site, said, denotes.readsLocals⟩
  · intro p parameter member
    exact (free _ member).1 (introduces.parameters p parameter)
  · intro stmt inside
    obtain ⟨type, name, value, rfl, taken⟩ := introduces.locals stmt inside
    exact ⟨type, name, value, rfl, fun member => (free name member).1 taken⟩
  · intro f field member
    exact (free _ member).2 (List.mem_map_of_mem field)

/-- What the method of a function consists of: its variables, and statements that make locals whose
names are free when the variables are declared. -/
theorem functionMethod_made (builtIn : env.graph.BuiltIn) (function : NodeId) (decl : FunctionDecl)
    (s : TranslatorState) {vars : (List ParameterDecl × List Stmt) × TranslatorState}
    (declared : (translateVariables env function env.graph.vars.values).run
      { s with bound := ∅, closed := [], names := [] } = vars) :
    s.context.errors <+: ((functionMethod env function decl).run s).2.context.errors ∧
      (((functionMethod env function decl).run s).2.context.errors = s.context.errors →
        ((functionMethod env function decl).run s).1.name = sanitize decl.methodName ∧
        ((functionMethod env function decl).run s).1.parameters = vars.1.1 ∧
          ∃ statements after,
            ((functionMethod env function decl).run s).1.body = vars.1.2 ++ statements ∧
            Grown vars.2 ((functionMethod env function decl).run s).2
              (Stmt.localNamesAll statements) ∧
            Scoped env [] statements after) := by
  have introduced := translateVariables_introduces env function env.graph.vars.values
    { s with bound := ∅, closed := [], names := [] }
  have run := functionMethod_run env function decl s
  rw [declared] at introduced run
  obtain ⟨⟨parameters, locals⟩, s'⟩ := vars
  obtain ⟨grows, holds⟩ := completeMethod_declares builtIn parameters locals s'
  dsimp only at run
  rw [run]
  refine ⟨introduced.errors.trans grows, fun same => ?_⟩
  have middle : s'.context.errors = s.context.errors :=
    (introduced.errors.eq_of_length_le (same ▸ grows.length_le)).symm
  have empty : s'.bound.entries ⊆ [] := by
    rw [show s'.bound = ∅ from introduced.bound]
    exact List.Subset.refl _
  obtain ⟨made, _, grown, -, name, parameters, statements, after, body, rfl, reads⟩ :=
    holds (same.trans middle.symm) [] empty
  exact ⟨name, parameters, statements, after, body, grown, reads⟩

theorem functionMethod_wellScoped (builtIn : env.graph.BuiltIn) (function : NodeId)
    (decl : FunctionDecl) (s : TranslatorState) :
    s.context.errors <+: ((functionMethod env function decl).run s).2.context.errors ∧
      (((functionMethod env function decl).run s).2.context.errors = s.context.errors →
        ((functionMethod env function decl).run s).2.context.fields = s.context.fields ∧
        ((functionMethod env function decl).run s).1.name = sanitize decl.methodName ∧
          ∃ locals statements,
            ((functionMethod env function decl).run s).1.body = locals ++ statements ∧
            WellScoped env function ((functionMethod env function decl).run s).1.parameters
              s.context.fields locals statements) := by
  have introduced := translateVariables_introduces env function env.graph.vars.values
    { s with bound := ∅, closed := [], names := [] }
  obtain ⟨grows, made⟩ := functionMethod_made builtIn function decl s rfl
  refine ⟨grows, fun same => ?_⟩
  obtain ⟨name, parameters, statements, _, body, grown, reads⟩ := made same
  refine ⟨grown.fields.trans introduced.fields, name, _, statements, body, ?_⟩
  rw [parameters]
  exact introduced.wellScoped grown reads

/-- Without extensions, the method of a function that is translated without errors, which becomes
(the end of) the one that is filed under its name, consists of the declarations of its variables and
of statements whose locals are read where they are declared and are named like nothing else in it.
-/
theorem translateFunction_wellScoped (env : TranslationEnv) (builtIn : env.graph.BuiltIn)
    (function : NodeId) (decl : FunctionDecl) (s : TranslatorState)
    (clean : ((translateFunction env function decl).run s).2.context.errors = s.context.errors) :
    ∃ whole locals statements,
      ((translateFunction env function decl).run s).2.context.methods.get?
        (sanitize decl.methodName) = some whole ∧
      whole.parameters = ((functionMethod env function decl).run s).1.parameters ∧
      ((functionMethod env function decl).run s).1.body <:+ whole.body ∧
      ((functionMethod env function decl).run s).1.body = locals ++ statements ∧
      WellScoped env function whole.parameters
        ((translateFunction env function decl).run s).2.context.fields locals statements := by
  obtain ⟨grows, made⟩ := functionMethod_wellScoped builtIn function decl s
  have run := translateFunction_run env function decl s
  generalize (functionMethod env function decl).run s = r at grows made run
  obtain ⟨method, s'⟩ := r
  dsimp only at grows made run
  rw [run] at clean ⊢
  rcases fileMethod_cases function decl method s' with
    ⟨merged, found, errors, fields, methods⟩ | ⟨e, -, added⟩
  · obtain ⟨kept, name, locals, statements, body, sound⟩ := made (errors.symm.trans clean)
    obtain ⟨-, -, whole, filed, parameters, ending⟩ := TranslationContext.mergeMethod_ok found
    refine ⟨whole, locals, statements, ?_, parameters, ending, body, ?_⟩
    · rw [methods, ← name, filed]
    · rwa [parameters, fields, kept]
  · have longer := grows.length_le
    have length := congrArg List.length (added.symm.trans clean)
    rw [List.length_append, List.length_singleton] at length
    omega

/-- A function that calls a method and runs through what it returns; each item decides a choice. -/
def gathering : Graph :=
  { Graph.empty "Gathering" with
    nodes := ⟨
      [placed 10 (.function (.onEvent .start)) none [⟨numbered 20⟩, ⟨numbered 30⟩]
          [.execOutput "Out"],
        placed 20 (.call (.plain ⟨"Field", "Gather"⟩)) (some ⟨numbered 10⟩) []
          [.dataOutput "Result" .unknown],
        placed 30 .forEach (some ⟨numbered 10⟩) []
          [.dataInput "Collection" .unknown, .execOutput "Body", .dataOutput "Item" .unknown],
        placed 40 .loopStack none [⟨numbered 50⟩] [.execInput "In"],
        placed 50 .branch (some ⟨numbered 40⟩) []
          [.dataInput "Condition" .bool, .execOutput "Then", .execOutput "Else"]], by decide⟩
    edges := ⟨[wired 61 20 21 30 31, wired 62 30 32 40 41, wired 63 30 33 50 51], by decide⟩ }

/-- The types of a method without parameters and nothing else. -/
def gatheringOracle : TypeOracle :=
  { TypeDatabase.empty.toOracle with
    method? := fun _ => some
      { declaringType := .named "Field" [], name := "Gather", isStatic := true,
        genericParameters := [], parameters := [], returnType := .named "List" [] } }

def gatheringEnv : TranslationEnv := ⟨gathering, gatheringOracle, .standard, ∅⟩

theorem translateFunction_wellScoped_gathering :
    let start : NodeId := ⟨numbered 10⟩
    let s : TranslatorState := ⟨.empty, none, ∅, [], []⟩
    let method := ((functionMethod gatheringEnv start (.onEvent .start)).run s).1
    let after := ((translateFunction gatheringEnv start (.onEvent .start)).run s).2.context
    gathering.BuiltIn ∧ after.errors = [] ∧
      Stmt.localNamesAll method.body = ["gather0", "item0"] ∧
      ∃ whole locals statements, after.methods.get? (sanitize "Start") = some whole ∧
        whole.parameters = method.parameters ∧ method.body <:+ whole.body ∧
        method.body = locals ++ statements ∧
        WellScoped gatheringEnv start whole.parameters after.fields locals statements := by
  have builtIn : gathering.BuiltIn := Graph.BuiltIn.of_entries (by decide)
  have clean : ((translateFunction gatheringEnv ⟨numbered 10⟩ (.onEvent .start)).run
      ⟨.empty, none, ∅, [], []⟩).2.context.errors = [] := by cbv
  exact ⟨builtIn, clean, by decide +kernel,
    translateFunction_wellScoped gatheringEnv builtIn ⟨numbered 10⟩ (.onEvent .start)
      ⟨.empty, none, ∅, [], []⟩ clean⟩

end NodeScript
