import NodeScript.Proofs.OrderedMap
import NodeScript.Proofs.Translation.Evaluation
import NodeScript.Translation.Translate

/-!
The translation of a function in two parts: the method is made, and it is filed among the methods
that are there.
-/

namespace NodeScript

/-- The method of a function whose variables are declared. -/
def completeMethod (env : TranslationEnv) (function : NodeId) (decl : FunctionDecl)
    (parameters : List ParameterDecl) (locals : List Stmt) : Translate MethodDecl := do
  let statements ← env.functionBody function
  let returnType ← translateReturnType env function decl
  return {
    visibility := if decl.event.isSome then .hidden else .visible
    returnType
    name := sanitize decl.methodName
    parameters
    body := locals ++ statements
    origin := some function }

def functionMethod (env : TranslationEnv) (function : NodeId) (decl : FunctionDecl) :
    Translate MethodDecl := do
  modify fun s => { s with bound := ∅, closed := [], names := [] }
  let (parameters, locals) ← translateVariables env function env.graph.vars.values
  completeMethod env function decl parameters locals

/-- Files a method among those that are there and subscribes it where an event needs it. -/
def fileMethod (function : NodeId) (decl : FunctionDecl) (method : MethodDecl) :
    Translate Unit := do
  match (← get).context.mergeMethod method with
  | .error e => reportError e
  | .ok context =>
    modify fun s => { s with context }
    match decl.event with
    | some (.custom event) =>
      modifyContext (·.addRegistration method.name (subscription function event method.name))
    | _ => return ()

theorem translateFunction_eq (env : TranslationEnv) (function : NodeId) (decl : FunctionDecl) :
    translateFunction env function decl =
      functionMethod env function decl >>= fileMethod function decl := rfl

theorem translateFunction_run (env : TranslationEnv) (function : NodeId) (decl : FunctionDecl)
    (s : TranslatorState) :
    (translateFunction env function decl).run s =
      (fileMethod function decl ((functionMethod env function decl).run s).1).run
        ((functionMethod env function decl).run s).2 := rfl

theorem functionMethod_run (env : TranslationEnv) (function : NodeId) (decl : FunctionDecl)
    (s : TranslatorState) :
    (functionMethod env function decl).run s =
      let declared := (translateVariables env function env.graph.vars.values).run
        { s with bound := ∅, closed := [], names := [] }
      (completeMethod env function decl declared.1.1 declared.1.2).run declared.2 := rfl

/-- The translation of a graph behind the beginning of its record. -/
def translateMembers (env : TranslationEnv) : Translate Unit := do
  translateFields env
  env.graph.functions.forM fun (function, decl) => translateFunction env function decl
  modifyContext (·.flushRegistrations env.options.registrationMethod)

namespace TranslationEnv

/-- The state in which the members of a graph are translated. -/
def begun (env : TranslationEnv) (trace : Option TraceRecord) : TranslatorState :=
  ⟨.empty, trace.map (·.beginGraph env.graph.name), ∅, [], []⟩

/-- The code of what has been gathered. -/
def unitOf (env : TranslationEnv) (c : TranslationContext) : CodeUnit where
  usings := env.usings
  namespaceName := env.options.namespaceName
  classDecl :=
    { name := env.className
      base := env.baseClass?
      fields := c.fields
      members := c.members
      methods := c.methods.values }

theorem translate_eq (env : TranslationEnv) (trace : Option TraceRecord) :
    let s := ((translateMembers env).run (env.begun trace)).2
    env.translate trace = ⟨env.unitOf s.context, s.context.errors, s.trace⟩ := rfl

end TranslationEnv

namespace TranslationContext

variable {c c' : TranslationContext} {m : MethodDecl} {e : CompilerError}

/-- A method is filed under its name, at the end of what it is merged with. -/
theorem mergeMethod_ok (merged : c.mergeMethod m = .ok c') :
    c'.errors = c.errors ∧ c'.fields = c.fields ∧ ∃ whole, c'.methods.get? m.name = some whole ∧
      whole.parameters = m.parameters ∧ m.body <:+ whole.body := by
  unfold mergeMethod at merged
  split at merged
  · obtain rfl := Except.ok.inj merged
    exact ⟨rfl, rfl, m, OrderedMap.get?_insert_self, rfl, List.suffix_rfl⟩
  · rename_i present _
    split at merged
    · rename_i same
      obtain rfl := Except.ok.inj merged
      have parameters : present.parameters = m.parameters := by
        simp only [MethodDecl.sameSignature, Bool.and_eq_true, decide_eq_true_eq] at same
        exact same.2
      exact ⟨rfl, rfl, _, OrderedMap.get?_insert_self, parameters, List.suffix_append _ _⟩
    · exact nomatch merged

theorem addRegistration_kept (c : TranslationContext) (key : String) (s : Stmt) :
    (c.addRegistration key s).errors = c.errors ∧ (c.addRegistration key s).fields = c.fields ∧
      (c.addRegistration key s).methods = c.methods := by
  unfold addRegistration
  split <;> exact ⟨rfl, rfl, rfl⟩

theorem mergeMethod_error (failed : c.mergeMethod m = .error e) : e.AboutValues := by
  unfold mergeMethod at failed
  split at failed
  · exact nomatch failed
  · split at failed
    · exact nomatch failed
    · obtain rfl := Except.error.inj failed
      unfold CompilerError.AboutValues
      simp [redeclared, CompilerError.translation, toString]

end TranslationContext

/-- What is filed is merged with what was there, or an error is reported. -/
theorem fileMethod_cases (function : NodeId) (decl : FunctionDecl) (m : MethodDecl)
    (s : TranslatorState) :
    (∃ merged, s.context.mergeMethod m = .ok merged ∧
        ((fileMethod function decl m).run s).2.context.errors = s.context.errors ∧
        ((fileMethod function decl m).run s).2.context.fields = s.context.fields ∧
        ((fileMethod function decl m).run s).2.context.methods = merged.methods) ∨
      ∃ e : CompilerError, e.AboutValues ∧
        ((fileMethod function decl m).run s).2.context.errors = s.context.errors ++ [e] := by
  cases found : s.context.mergeMethod m with
  | error e =>
    refine .inr ⟨e, TranslationContext.mergeMethod_error found, ?_⟩
    simp only [fileMethod, StateT.run_bind, StateT.run_get, pure_bind, found]
    rfl
  | ok merged =>
    obtain ⟨errors, fields, -⟩ := TranslationContext.mergeMethod_ok found
    refine .inl ⟨merged, rfl, ?_⟩
    simp only [fileMethod, StateT.run_bind, StateT.run_get, pure_bind, found]
    split
    · rename_i event _
      have kept := merged.addRegistration_kept m.name (subscription function event m.name)
      exact ⟨kept.1.trans errors, kept.2.1.trans fields, kept.2.2⟩
    · exact ⟨errors, fields, rfl⟩

end NodeScript
