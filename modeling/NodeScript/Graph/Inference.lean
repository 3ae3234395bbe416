import NodeScript.Graph.Edit
import NodeScript.Typing.Solving

/-!
Type arguments of the calls in a graph, inferred from the types that are connected to their inputs.
-/

namespace NodeScript

/-- Why the type arguments of a call could not be inferred. -/
inductive InferenceError where
  | solve (error : SolveError)
  | notAFunctionCall (node : NodeId)
  | definition (error : DefinitionError)
deriving DecidableEq, Repr

/-- The wording of the error. -/
def InferenceError.message : InferenceError → String
  | .solve error => error.message
  | .notAFunctionCall node => s!"Node is not a function call: {node.shown}"
  | .definition error => error.message

instance : ToString InferenceError := ⟨InferenceError.message⟩

namespace Graph

/-- The type that is connected to an input. -/
def inputType? (g : Graph) (oracle : TypeOracle) (node : NodeId) (input : String) :
    Option TypeExpr := do
  let (_, port) ← g.inputSource? node input
  oracle.resolve port.type

/-- Solves a call from its inputs in order, the first being the `index`-th slot. The first error is
kept. -/
def solveInputs (g : Graph) (oracle : TypeOracle) (m : MethodSignature) (node : NodeId) :
    (index : Nat) → List String → Solution → Option SolveError → Solution × Option SolveError
  | _, [], s, failure => (s, failure)
  | index, input :: rest, s, failure =>
    match g.inputType? oracle node input with
    | none => solveInputs g oracle m node (index + 1) rest s failure
    | some concrete =>
      let (s, result) := s.step oracle m concrete index
      let failure := match failure, result with
        | none, .error e => some e
        | _, _ => failure
      solveInputs g oracle m node (index + 1) rest s failure

/-- The inputs of a node that take values or an object. -/
def valueInputs (n : Node) : List String :=
  (n.inputs.filter (·.kind ≠ .execution)).map (·.name)

/-- Infers the type arguments of a call and defines its ports anew. What could be inferred is kept
even when there is an error. -/
def inferNode (g : Graph) (env : DefinitionEnv) (node : NodeId) (supply : IdSupply) :
    Except InferenceError Bindings × Graph × IdSupply :=
  match g.node? node with
  | none => (.error (.definition (.nodeNotFound node)), g, supply)
  | some n =>
    match n.kind with
    | .call decl =>
      match env.oracle.method? decl.method with
      | none => (.error (.definition (.unknownMethod decl.method)), g, supply)
      | some m =>
        if !m.isGeneric then (.ok ∅, g, supply)
        else
          let (s, failure) := g.solveInputs env.oracle m node 0 (valueInputs n) m.unsolved none
          let kind : NodeKind :=
            .call { decl with typeArguments := s.bindings.mapValues fun _ t => .of t }
          let bound := g.modifyNode node fun n => { n with kind }
          match bound.defineNode env node supply with
          | .error e => (.error (.definition e), bound, supply)
          | .ok (g, supply) =>
            match failure with
            | some e => (.error (.solve e), g, supply)
            | none => (.ok s.bindings, g, supply)
    | _ => (.error (.notAFunctionCall node), g, supply)

/-- Whether the calls of a node in two graphs are the same. -/
def sameCall (before after : Graph) (node : NodeId) : Bool :=
  match (before.node? node).map Node.kind, (after.node? node).map Node.kind with
  | some (.call a), some (.call b) => a.agrees b
  | a, b => a = b

/-- What a pass over calls has led to: the graph, the failures by call, and whether a call changed.
-/
structure InferencePass where
  graph : Graph
  supply : IdSupply
  failures : OrderedMap NodeId InferenceError
  changed : Bool

/-- Infers one call in the course of a pass. -/
def InferencePass.step (env : DefinitionEnv) (pass : InferencePass) (node : NodeId) :
    InferencePass :=
  let (result, g, supply) := pass.graph.inferNode env node pass.supply
  { graph := g
    supply
    failures := match result with
      | .ok _ => pass.failures.erase node
      | .error e => pass.failures.insert node e
    changed := pass.changed || !sameCall pass.graph g node }

/-- Infers calls pass by pass until a pass changes nothing. -/
def inferPasses (env : DefinitionEnv) (calls : List NodeId) :
    (passes : Nat) → InferencePass → InferencePass
  | 0, pass => pass
  | passes + 1, pass =>
    let next := calls.foldl (InferencePass.step env) { pass with changed := false }
    if next.changed then inferPasses env calls passes next else next

/-- Infers every call, over and over, until nothing changes. A pass settles at least one more call
of a chain of calls, so one pass more than there are calls is enough. -/
def inferAll (g : Graph) (env : DefinitionEnv) (supply : IdSupply) :
    List (NodeId × InferenceError) × Graph × IdSupply :=
  let calls := (g.nodes.values.filter (·.kind.call?.isSome)).map (·.id)
  let result := inferPasses env calls (calls.length + 1) ⟨g, supply, ∅, false⟩
  (result.failures.entries, result.graph, result.supply)

end Graph

end NodeScript
