import NodeScript.Translation.Statement

/-!
The translation of a graph: its variables become fields, parameters and locals, its functions become
methods, and events are subscribed to.
-/

namespace NodeScript

/-- Who may see a variable. -/
def VariableDecl.visibility (v : VariableDecl) : Visibility :=
  if v.exposed then .visible else .hidden

/-- The complaint about a variable whose type is not known. -/
def VariableDecl.unknownType (v : VariableDecl) : String :=
  s!"Unknown type `{v.type.text}` of variable `{v.name}`"

/-- Adds the field of a variable. -/
def translateField (env : TranslationEnv) (v : VariableDecl) : Translate Unit :=
  match env.typeName? v.type with
  | none => reportError (.translation none v.unknownType)
  | some type => modifyContext fun c =>
    (c.addField ⟨v.visibility, type, sanitize v.name, v.initialValue.map Constant.expr⟩).2

/-- Adds the fields of all variables that belong to no function. -/
def translateFields (env : TranslationEnv) : Translate Unit :=
  (env.graph.vars.values.filter fun v => v.scope = .field).forM (translateField env)

/-- The parameters and the declarations of the locals of a function. -/
def translateVariables (env : TranslationEnv) (function : NodeId) :
    List VariableDecl → Translate (List ParameterDecl × List Stmt)
  | [] => pure ([], [])
  | v :: rest =>
    if v.scope.function? = some function then
      match env.oracle.resolve v.type with
      | none => do
        reportAt function v.unknownType
        translateVariables env function rest
      | some t => do
        let name := sanitize v.name
        modify fun s => { s with names := name :: s.names }
        let (parameters, locals) ← translateVariables env function rest
        match v.scope with
        | .parameter _ => return (⟨t.text, name⟩ :: parameters, locals)
        | _ =>
          let value := v.initialValue.getD (env.oracle.defaultValue t)
          let declaration := .declare (some function) (some t.text) name (some value.expr)
          return (parameters, declaration :: locals)
    else translateVariables env function rest

/-- The type of the result of a function; event handlers have none. -/
def translateReturnType (env : TranslationEnv) (function : NodeId) (decl : FunctionDecl) :
    Translate String := do
  if decl.event.isSome then return "void"
  else
    match env.typeName? decl.returnType with
    | some type => return type
    | none =>
      reportAt function s!"Unknown return type `{decl.returnType.text}`"
      return "void"

/-- The statement that subscribes a method to an event. -/
def subscription (function : NodeId) (event method : String) : Stmt :=
  .effect (some function)
    (.callOn (.ident "EventBus") "Subscribe" [] [.quoted event, .ident method])

/-- Adds the method of a function and, where an event needs it, the subscription. -/
def translateFunction (env : TranslationEnv) (function : NodeId) (decl : FunctionDecl) :
    Translate Unit := do
  modify fun s => { s with bound := ∅, closed := [], names := [] }
  let (parameters, locals) ← translateVariables env function env.graph.vars.values
  let statements ← env.functionBody function
  let returnType ← translateReturnType env function decl
  let name := sanitize decl.methodName
  let method : MethodDecl :=
    { visibility := if decl.event.isSome then .hidden else .visible
      returnType, name, parameters
      body := locals ++ statements
      origin := some function }
  match (← get).context.mergeMethod method with
  | .error e => reportError e
  | .ok context =>
    modify fun s => { s with context }
    match decl.event with
    | some (.custom event) =>
      modifyContext (·.addRegistration name (subscription function event name))
    | _ => return ()

/-- Translates the fields and functions of a graph. -/
def translateGraph (env : TranslationEnv) : Translate Unit := do
  modify fun s => { s with trace := s.trace.map (·.beginGraph env.graph.name) }
  translateFields env
  env.graph.functions.forM fun (function, decl) => translateFunction env function decl
  modifyContext (·.flushRegistrations env.options.registrationMethod)

/-- The namespaces that the code of a graph imports: those of the graph, then further ones of the
options. -/
def TranslationEnv.usings (env : TranslationEnv) : List String :=
  env.options.usings.foldl addName env.graph.stencil.usings

/-- The base class of the class of a graph, if it has one. -/
def TranslationEnv.baseClass? (env : TranslationEnv) : Option String :=
  match env.options.baseClass with
  | some base => some base
  | none =>
    let base := env.graph.stencil.baseClass
    if base.isEmpty then none else some base

/-- The name of the class of a graph. -/
def TranslationEnv.className (env : TranslationEnv) : String :=
  env.options.className.getD (sanitize env.graph.name)

/-- The code of a graph, the errors, and the record of traced runs. -/
structure Translation where
  unit : CodeUnit
  errors : List CompilerError
  trace : Option TraceRecord

/-- Translates a graph. -/
def TranslationEnv.translate (env : TranslationEnv) (trace : Option TraceRecord) : Translation :=
  let start : TranslatorState := ⟨.empty, trace, ∅, [], []⟩
  let (_, s) := (translateGraph env).run start
  { unit :=
      { usings := env.usings
        namespaceName := env.options.namespaceName
        classDecl :=
          { name := env.className
            base := env.baseClass?
            fields := s.context.fields
            members := s.context.members
            methods := s.context.methods.values } }
    errors := s.context.errors
    trace := s.trace }

end NodeScript
