import NodeScript.Code.Expr
import NodeScript.Graph.Basic
import NodeScript.Translation.Context

/-!
What the translation of a graph works with: the graph and its types, what is gathered on the way,
and the locals that hold values.
-/

namespace NodeScript

/-- An output of a node. -/
structure OutputRef where
  node : NodeId
  output : String
deriving DecidableEq, Repr, Inhabited

/-- What changes in the course of a translation. -/
structure TranslatorState where
  context : TranslationContext
  /-- The record of traced runs, if the translation is traced. -/
  trace : Option TraceRecord
  /-- The locals that hold the values of outputs. -/
  bound : OrderedMap OutputRef String
  /-- The outputs whose locals belong to blocks that are closed. -/
  closed : List OutputRef
  /-- The names that are taken in the function at hand. -/
  names : List String
deriving Inhabited

/-- A part of the translation. -/
abbrev Translate := StateM TranslatorState

/-- A part of the translation that may fail with an error; what it has changed stays changed. -/
abbrev Evaluate := ExceptT CompilerError (StateM TranslatorState)

/-- The error of a node. -/
def nodeError (node : NodeId) (message : String) : CompilerError :=
  .translation (some node) message

/-- What an extension knows of the node that it translates. -/
structure ExtensionScope where
  graph : Graph
  oracle : TypeOracle
  node : Node
  /-- The expression that feeds an input of the node. -/
  input : String → Evaluate Expr

/-- How an extension translates the nodes of a kind. -/
structure NodeTranslator where
  /-- The statements of a node in a stack. -/
  statements : ExtensionScope → Evaluate (List Stmt)
  /-- The expression of an output. -/
  expression : ExtensionScope → String → Evaluate Expr

/-- The error of a kind of nodes that may not stand in stacks. -/
def unstackable (node : NodeId) (typeId : String) : CompilerError :=
  nodeError node s!"`{typeId}` nodes cannot be placed in a stack"

/-- A translator for nodes that stand in no stack and have no outputs. -/
def NodeTranslator.refusing (typeId : String) : NodeTranslator where
  statements scope := throw (unstackable scope.node.id typeId)
  expression scope output :=
    throw (nodeError scope.node.id s!"`{typeId}` has no value output `{output}`")

/-- What stays the same in the course of a translation. -/
structure TranslationEnv where
  graph : Graph
  oracle : TypeOracle
  options : TranslationOptions
  /-- The translators of extensions by the names of their kinds. -/
  translators : OrderedMap String NodeTranslator

/-- The text of the type of a handle, if it is known. -/
def TranslationEnv.typeName? (env : TranslationEnv) (handle : TypeHandle) : Option String :=
  (env.oracle.resolve handle).map TypeExpr.text

/-- Changes what is gathered. -/
def modifyContext (change : TranslationContext → TranslationContext) : Translate Unit :=
  modify fun s => { s with context := change s.context }

/-- Changes what is gathered, and returns what the change tells. -/
def changeContext {α : Type} (change : TranslationContext → α × TranslationContext) : Evaluate α :=
  modifyGet fun s => ((change s.context).1, { s with context := (change s.context).2 })

/-- Adds a method to what is gathered. It fails if a method of the name has another signature. -/
def addMethod (m : MethodDecl) : Evaluate Unit := do
  match (← get).context.mergeMethod m with
  | .ok context => modifyContext fun _ => context
  | .error e => throw e

/-- Reports an error. -/
def reportError (e : CompilerError) : Translate Unit := modifyContext (·.report e)

/-- Reports an error of a node. -/
def reportAt (node : NodeId) (message : String) : Translate Unit :=
  reportError (nodeError node message)

/-- Whether a name is that of a local, a parameter or a field. -/
def TranslatorState.isTaken (s : TranslatorState) (name : String) : Bool :=
  s.names.contains name || s.context.hasField name

/-- The name with the least number behind it that is not taken. There are more numbers to try than
names that are taken. -/
def TranslatorState.freeName (s : TranslatorState) (stem : String) : String :=
  let candidates := (List.range (s.names.length + s.context.fields.length + 1)).map fun n =>
    stem ++ String.ofList (natDigits n)
  (candidates.find? fun name => !s.isTaken name).getD stem

/-- Takes a free name for a local that is named after something. -/
def freshLocal (base : String) : Translate String := do
  let s ← get
  let name := s.freeName (localStem base)
  set { s with names := name :: s.names }
  return name

/-- Binds an output to a free local and returns the name of the local. -/
def bindOutput (node : NodeId) (output base : String) : Translate String := do
  let name ← freshLocal base
  modify fun s => { s with bound := s.bound.insert ⟨node, output⟩ name }
  return name

/-- Runs the translation of a nested block. The locals that it binds are closed behind it. -/
def inBlock (body : Translate (List Stmt)) : Translate (List Stmt) := do
  let outer := (← get).bound
  let statements ← body
  modify fun s =>
    { s with
      bound := outer
      closed := s.closed ++ s.bound.keys.filter fun key => !outer.contains key }
  return statements

end NodeScript
