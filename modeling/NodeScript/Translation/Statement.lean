import NodeScript.Graph.Join
import NodeScript.Translation.Value

/-!
The statements of stacks. Stacks are translated in the order in which execution passes them. A
choice is followed in each of its branches up to the join of all of them, and the translation goes
on at the join behind the choice.
-/

namespace NodeScript

/-- Translates the stacks from one on, up to another. -/
abbrev BranchTranslator := NodeId → Option NodeId → Translate (List Stmt)

/-- The statements of a branch up to the join; a branch that leads nowhere has none. -/
def translateBranch (chain : BranchTranslator) (target join : Option NodeId) :
    Translate (List Stmt) :=
  match target with
  | some start => inBlock (chain start join)
  | none => pure []

/-- The call that reports that a node runs. -/
def traceCall (graph : String) (index : Nat) : Expr :=
  .callOn (.ident "ScriptTrace") "Record" []
    [.quoted graph, .literal (String.ofList (natDigits index))]

/-- The statement that reports that a node runs, if the translation is traced. -/
def traceStatement (env : TranslationEnv) (node : NodeId) : Translate (List Stmt) := do
  let s ← get
  match s.trace with
  | none => return []
  | some record =>
    let (index, record) := record.register env.graph.name node
    set { s with trace := some record }
    return [.effect (some node) (traceCall env.graph.name index)]

/-- A choice between two branches, and their join if both lead somewhere. -/
def translateIf (env : TranslationEnv) (chain : BranchTranslator) (n : Node) :
    Translate (Stmt × Option NodeId) := do
  let condition ← env.inputOrDefault n.id "Condition" "bool"
  let thenTarget := env.graph.execTarget? n.id "Then"
  let elseTarget := env.graph.execTarget? n.id "Else"
  let join := match thenTarget, elseTarget with
    | some a, some b => env.graph.joinOfTwo? a b
    | _, _ => none
  let thenBody ← translateBranch chain thenTarget join
  let elseBody ← translateBranch chain elseTarget join
  return (.branch (some n.id) condition thenBody elseBody, join)

/-- The statements for the cases of a choice. -/
def translateCases (env : TranslationEnv) (chain : BranchTranslator) (n : Node)
    (join : Option NodeId) : List Int64 → Translate (List SwitchCase)
  | [] => pure []
  | label :: rest => do
    let body ← translateBranch chain (env.graph.execTarget? n.id (caseOutput label)) join
    let others ← translateCases env chain n join rest
    return .mk label body :: others

/-- The join of the branches of a choice, if every one of them leads somewhere. -/
def joinOfCases? (env : TranslationEnv) (n : Node) (cases : List Int64) : Option NodeId := do
  let targets ← cases.mapM fun label => env.graph.execTarget? n.id (caseOutput label)
  let fallback ← env.graph.execTarget? n.id "Default"
  env.graph.joinOf? (targets ++ [fallback])

/-- A choice by an integer, and the join of its branches. -/
def translateSwitch (env : TranslationEnv) (chain : BranchTranslator) (n : Node)
    (cases : List Int64) : Translate (Stmt × Option NodeId) := do
  let value ← env.inputOrDefault n.id "Value" "int"
  let join := joinOfCases? env n cases
  let bodies ← translateCases env chain n join cases
  let fallback ← translateBranch chain (env.graph.execTarget? n.id "Default") join
  return (.select (some n.id) value bodies fallback, join)

/-- The statement that leaves a function. -/
def translateLeave (env : TranslationEnv) (n : Node) : Translate Stmt := do
  match n.input? "Value" with
  | some port =>
    let value ← env.inputOrDefault n.id "Value" port.type.text
    return .leave (some n.id) (some value)
  | none => return .leave (some n.id) none

/-- The statement that assigns a variable. -/
def translateAssignment (env : TranslationEnv) (n : Node) (id : VariableId) :
    Translate (List Stmt) := do
  match env.graph.variableDecl? id with
  | none =>
    reportAt n.id "Assigned variable no longer exists"
    return []
  | some v =>
    let value ← env.inputOrDefault n.id "Value" ((env.typeName? v.type).getD "object")
    return [.assign (some n.id) (.ident (sanitize v.name)) value]

/-- The statement that calls a method. Where its result is used it goes into a local. -/
def translateCall (env : TranslationEnv) (n : Node) (call : CallDecl) : Translate (List Stmt) := do
  match ← (env.callExpr n call (env.inputExpr n.id)).run with
  | .error e =>
    reportError e
    return []
  | .ok value =>
    if (n.output? "Result").any fun port => !(env.graph.edgesFrom port.id).isEmpty then
      let name ← bindOutput n.id "Result" call.method.name
      return [.declare (some n.id) none name (some value)]
    else return [.effect (some n.id) value]

/-- The statement that repeats its body. -/
def translateWhile (env : TranslationEnv) (chain : BranchTranslator) (n : Node) :
    Translate (List Stmt) := do
  let condition ← env.inputOrDefault n.id "Condition" "bool"
  let body ← translateBranch chain (env.graph.execTarget? n.id "Body") none
  return [.repeated (some n.id) condition body]

/-- The statement that runs its body for each item. The local of the item is bound in the body
only. -/
def translateForEach (env : TranslationEnv) (chain : BranchTranslator) (n : Node) :
    Translate (List Stmt) := do
  let collection ← env.inputOrDefault n.id "Collection" "object[]"
  let item ← bindOutput n.id "Item" "item"
  let body ← translateBranch chain (env.graph.execTarget? n.id "Body") none
  modify fun s => { s with bound := s.bound.erase ⟨n.id, "Item"⟩ }
  return [.forEach (some n.id) item collection body]

/-- The statements of a node that an extension translates. -/
def translateCustom (env : TranslationEnv) (n : Node) (typeId : String) :
    Translate (List Stmt) := do
  match env.translators.get? typeId with
  | none =>
    reportError (missingTranslator n.id typeId)
    return []
  | some translator =>
    match ← (translator.statements ⟨env.graph, env.oracle, n, env.inputExpr n.id⟩).run with
    | .ok statements => return statements
    | .error e =>
      reportError e
      return []

/-- The statements of a node that does not end its stack. -/
def translateNode (env : TranslationEnv) (chain : BranchTranslator) (n : Node) :
    Translate (List Stmt) :=
  match n.kind with
  | .setVariable id => translateAssignment env n id
  | .call call => translateCall env n call
  | .repeated => translateWhile env chain n
  | .forEach => translateForEach env chain n
  | .custom typeId _ => translateCustom env n typeId
  | kind => do
    reportError (unstackable n.id kind.typeId)
    return []

/-- The statements of nodes up to the first that ends their stack, and where execution goes on. -/
def translateChildren (env : TranslationEnv) (chain : BranchTranslator) (stack : NodeId) :
    List NodeId → Translate (List Stmt × Option NodeId)
  | [] => pure ([], env.graph.execTarget? stack "Out")
  | child :: rest =>
    match env.graph.node? child with
    | none => translateChildren env chain stack rest
    | some n => do
      let hook ← traceStatement env child
      match n.kind with
      | .branch =>
        let (statement, join) ← translateIf env chain n
        return (hook ++ [statement], join)
      | .select cases =>
        let (statement, join) ← translateSwitch env chain n cases
        return (hook ++ [statement], join)
      | .leave =>
        let statement ← translateLeave env n
        return (hook ++ [statement], none)
      | _ =>
        let statements ← translateNode env chain n
        let (others, next) ← translateChildren env chain stack rest
        return (hook ++ statements ++ others, next)

/-- The statements of a stack, and where execution goes on. -/
def translateStack (env : TranslationEnv) (chain : BranchTranslator) (stack : NodeId) :
    Translate (List Stmt × Option NodeId) := do
  match env.graph.node? stack with
  | none => return ([], none)
  | some n =>
    if n.kind.isStack then translateChildren env chain stack n.children
    else
      reportAt stack s!"`{n.title}` is not a stack"
      return ([], none)

/-- The statements of the stacks from `start` on, up to `stop`. The stacks on the `path` are being
translated already; the depth bounds how many more may be. -/
def TranslationEnv.chainWithin (env : TranslationEnv) :
    (depth : Nat) → (path : List NodeId) → (start : NodeId) → (stop : Option NodeId) →
      Translate (List Stmt)
  | depth, path, start, stop => do
    if stop = some start then return []
    else if path.contains start then
      reportAt start "Execution flows back into this stack; use a loop node instead"
      return []
    else
      match depth with
      | 0 => return []
      | depth + 1 =>
        let chain := env.chainWithin depth (start :: path)
        let (statements, next) ← translateStack env chain start
        match next with
        | none => return statements
        | some next =>
          let others ← chain next stop
          return statements ++ others

/-- The statements of a function. Of the stacks that are translated at once none occurs twice, and
all but the last are nodes of the graph. -/
def TranslationEnv.functionBody (env : TranslationEnv) (start : NodeId) : Translate (List Stmt) :=
  env.chainWithin (env.graph.nodes.size + 1) [] start none

end NodeScript
