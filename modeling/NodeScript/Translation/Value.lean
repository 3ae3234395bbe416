import NodeScript.Translation.Scope

/-!
The expressions of values. A value is followed back from an input to the node that it comes from; a
value that a local holds is read from there, and a value that would need itself is refused.
-/

namespace NodeScript

/-- How far types are followed back through connections. -/
def typeLookupSteps : Nat := 65

/-- The type of the value at an output: the declared one, or else the one that follows from the
types of the inputs. -/
def TranslationEnv.outputType? (env : TranslationEnv)
    (inputType : NodeId → String → Option TypeExpr) (n : Node) (output : String) :
    Option TypeExpr := do
  let port ← n.output? output
  if port.type ≠ .unknown then env.oracle.resolve port.type
  else
    match n.kind with
    | .binary op => do
      let a ← inputType n.id "A"
      let b ← inputType n.id "B"
      return (← (env.oracle.binaryOverloads op a b).head?).result
    | .unary op => do
      let a ← inputType n.id "Value"
      return (← (env.oracle.unaryOverloads op a).head?).result
    | .forEach => do (← inputType n.id "Collection").args.head?
    | _ => none

/-- The type of the value at an input, followed back over a number of connections at most. -/
def TranslationEnv.inputTypeWithin (env : TranslationEnv) :
    (steps : Nat) → NodeId → String → Option TypeExpr
  | 0, _, _ => none
  | steps + 1, node, input => do
    let n ← env.graph.node? node
    let port ← n.input? input
    match env.graph.inputSource? node input with
    | some (source, sourcePort) =>
      env.outputType? (env.inputTypeWithin steps) source sourcePort.name
    | none => env.oracle.resolve (← n.constants.get? port.id).type

/-- The type of the value at an input. -/
def TranslationEnv.inputType? (env : TranslationEnv) (node : NodeId) (input : String) :
    Option TypeExpr :=
  env.inputTypeWithin typeLookupSteps node input

/-- The error of an operator that its operands do not have. -/
def TranslationEnv.operatorFault? (env : TranslationEnv) (n : Node) :
    NodeKind → Option CompilerError
  | .binary op =>
    match env.inputType? n.id "A", env.inputType? n.id "B" with
    | some a, some b =>
      if (env.oracle.binaryOverloads op a b).isEmpty then
        some (nodeError n.id
          s!"Operator `{op.token}` cannot be applied to `{a.text}` and `{b.text}`")
      else none
    | _, _ => none
  | .unary op =>
    match env.inputType? n.id "Value" with
    | some a =>
      if (env.oracle.unaryOverloads op a).isEmpty then
        some (nodeError n.id s!"Operator `{op.token}` cannot be applied to `{a.text}`")
      else none
    | none => none
  | _ => none

/-- The type arguments of a call by the names of the variables. -/
def TranslationEnv.callTypeArgs (env : TranslationEnv) (n : Node) (call : CallDecl) :
    List String → Except CompilerError (List String)
  | [] => .ok []
  | name :: rest =>
    match (call.typeArguments.get? name).bind env.typeName? with
    | none =>
      .error (nodeError n.id s!"Cannot infer type argument `{name}` of `{call.method.text}`")
    | some type =>
      match env.callTypeArgs n call rest with
      | .ok types => .ok (type :: types)
      | .error e => .error e

/-- The expressions of several inputs, in order. -/
def readInputs (input : String → Evaluate Expr) : List String → Evaluate (List Expr)
  | [] => pure []
  | name :: rest => do
    let first ← input name
    let others ← readInputs input rest
    return first :: others

/-- The expression of a call whose inputs are read by `input`. -/
def TranslationEnv.callExpr (env : TranslationEnv) (n : Node) (call : CallDecl)
    (input : String → Evaluate Expr) : Evaluate Expr :=
  match env.oracle.method? call.method with
  | none => throw (nodeError n.id s!"Unknown method `{call.method.text}`")
  | some m => do
    let types ← MonadExcept.ofExcept (env.callTypeArgs n call m.genericParameters)
    let target ← if m.isStatic then pure (.ident m.declaringType.name) else input "Instance"
    let args ← readInputs input (m.parameters.map (·.name))
    return .callOn target m.name types args

/-- The error of an extension that is not there. -/
def missingTranslator (node : NodeId) (typeId : String) : CompilerError :=
  nodeError node s!"No translator registered for node type `{typeId}`"

/-- The expression of the value at an output of a node whose inputs are read by `input`. -/
def TranslationEnv.valueOf (env : TranslationEnv) (n : Node) (output : String)
    (input : String → Evaluate Expr) : Evaluate Expr :=
  match n.kind with
  | .constant value => pure value.expr
  | .getVariable id =>
    match env.graph.variableDecl? id with
    | some v => pure (.ident (sanitize v.name))
    | none => throw (nodeError n.id "Read variable no longer exists")
  | .this => pure .this
  | .binary op => do
    let lhs ← input "A"
    let rhs ← input "B"
    match env.operatorFault? n n.kind with
    | some e => throw e
    | none => return .binary op.token lhs rhs
  | .unary op => do
    let operand ← input "Value"
    match env.operatorFault? n n.kind with
    | some e => throw e
    | none => return .unary op.token operand
  | .call call =>
    if n.isStacked then
      throw (nodeError n.id s!"Result of `{call.method.text}` is used before the call runs")
    else env.callExpr n call input
  | .forEach => throw (nodeError n.id "Loop item is used outside its loop")
  | .custom typeId _ =>
    match env.translators.get? typeId with
    | some translator => translator.expression ⟨env.graph, env.oracle, n, input⟩ output
    | none => throw (missingTranslator n.id typeId)
  | _ => throw (nodeError n.id s!"`{n.title}` has no value output `{output}`")

/-- The expression of an input that nothing is connected to: the object that the code runs on where
one of its type is needed, and otherwise the value of the input itself. -/
def TranslationEnv.unconnectedInput (env : TranslationEnv) (n : Node) (port : Port)
    (input : String) : Except CompilerError Expr :=
  if port.kind = .receiver then
    let this := env.oracle.resolve .thisType
    if this.isSome && env.oracle.resolve port.type = this then .ok .this
    else .error (nodeError n.id s!"Input `{input}` of `{n.title}` needs an instance")
  else
    match n.constants.get? port.id with
    | some value => .ok value.expr
    | none => .error (nodeError n.id s!"Input `{input}` of `{n.title}` has no value")

/-- The error of a value that would need itself. -/
def cyclicValue (node : NodeId) : CompilerError :=
  nodeError node "Data flows back into this node"

/-- The expression of the value at an input. The nodes `under` are those whose value is being built,
and `build` goes on to the value at an output of one more. -/
def TranslationEnv.inputFrom (env : TranslationEnv) (under : List NodeId)
    (build : NodeId → Node → String → Evaluate Expr) (node : NodeId) (input : String) :
    Evaluate Expr :=
  match env.graph.node? node with
  | none => throw (nodeError node "Node no longer exists")
  | some n =>
    match n.input? input with
    | none => throw (nodeError node s!"`{n.title}` has no input `{input}`")
    | some port =>
      match env.graph.inputSource? node input with
      | none => MonadExcept.ofExcept (env.unconnectedInput { n with id := node } port input)
      | some (source, sourcePort) => do
        let s ← get
        match s.bound.get? ⟨source.id, sourcePort.name⟩ with
        | some name => return .ident name
        | none =>
          match env.graph.node? source.id with
          | none => throw (nodeError source.id "Node no longer exists")
          | some origin =>
            if s.closed.contains ⟨source.id, sourcePort.name⟩ then
              throw (nodeError source.id
                s!"Value of `{origin.title}` is produced in another branch")
            else if under.contains source.id then throw (cyclicValue source.id)
            else build source.id origin sourcePort.name

/-- The expression of the value at an input; the depth bounds how many more nodes may have their
values built at once. -/
def TranslationEnv.inputWithin (env : TranslationEnv) :
    (depth : Nat) → (under : List NodeId) → NodeId → String → Evaluate Expr
  | 0, under => env.inputFrom under fun source _ _ => throw (cyclicValue source)
  | depth + 1, under => env.inputFrom under fun source origin output =>
    env.valueOf origin output (env.inputWithin depth (source :: under) origin.id)

/-- The expression of the value at an input. Of the nodes whose values are built at once none occurs
twice, so there are no more of them than the graph has nodes. -/
def TranslationEnv.inputExpr (env : TranslationEnv) (node : NodeId) (input : String) :
    Evaluate Expr :=
  env.inputWithin env.graph.nodes.size [] node input

/-- The expression of an input; if there is none, the reason is reported and the default value of a
type stands in its place. -/
def TranslationEnv.inputOrDefault (env : TranslationEnv) (node : NodeId) (input type : String) :
    Translate Expr := do
  match ← (env.inputExpr node input).run with
  | .ok e => return e
  | .error e =>
    reportError e
    return .defaultOf type

end NodeScript
